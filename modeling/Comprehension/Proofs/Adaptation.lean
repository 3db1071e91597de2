import Comprehension.Resolved.Position

/-!
What adapting an expression to its position does. The result fits the position, and what fits a
position is left as it is.
-/
namespace Comprehension.Sql.Expr

/-- The truth value of a boolean constant. -/
def truth? : Expr → Option Bool
  | constant (.bool value) _ => some value
  | _ => none

theorem adapted_eq (native : Bool) (position : Position) (e : Expr) :
    adapted native position e =
      if position = .singleValue ∧ e.isEntity then
        .error (.unsupportedExpression e.kind .entityAsSingleValue)
      else match position, e.truth? with
        | .predicate, some value => .ok (truth value)
        | _, _ => .ok (if native then e else e.converted position) := by
  unfold adapted
  split
  · rfl
  · cases position <;> cases e with
    | constant value type => cases value <;> simp [truth?]
    | _ => simp [truth?]

/-- What a position asks of the expression that stands there. With a native boolean type only
constant conditions are out of place. -/
def Fits (native : Bool) : Position → Expr → Prop
  | .predicate, e => e.truth? = none ∧ (native = false → e.isPredicate ∨ e.type.isBoolean = false)
  | .value, e => native = false → e.isPredicate = false
  | .singleValue, e => e.isEntity = false ∧ (native = false → e.isPredicate = false)

theorem adapted_of_fits {native : Bool} {position : Position} {e : Expr}
    (h : e.Fits native position) : adapted native position e = .ok e := by
  rw [adapted_eq]
  cases position with
  | predicate =>
    obtain ⟨ht, hp⟩ := h
    cases native with
    | true => simp [ht]
    | false =>
      rcases hp rfl with hp | hp
      · simp [ht, converted, asPredicate, hp]
      · simp [ht, converted, asPredicate, hp]
  | value =>
    cases native with
    | true => simp
    | false => simp [converted, h rfl]
  | singleValue =>
    obtain ⟨he, hp⟩ := h
    cases native with
    | true => simp [he]
    | false => simp [he, converted, hp rfl]

theorem converted_cases (position : Position) (e : Expr) :
    e.converted position = e ∨ (e.isPredicate ∧ e.converted position = e.asValue) ∨
      (e.isPredicate = false ∧ e.type.isBoolean ∧ e.converted position = equal e (int 1)) := by
  cases position <;> simp only [converted, asPredicate]
  · split
    · exact .inl rfl
    · rename_i hp
      split
      · rename_i hb
        exact .inr (.inr ⟨by simpa using hp, hb, rfl⟩)
      · exact .inl rfl
  all_goals
    split
    · rename_i hp
      exact .inr (.inl ⟨hp, rfl⟩)
    · exact .inl rfl

/-- An expression is left as it is, made a value, made a predicate, or was a constant condition. -/
theorem adapted_cases {native : Bool} {position : Position} {e e' : Expr}
    (h : adapted native position e = .ok e') :
    e' = e ∨ (e.isPredicate ∧ e' = e.asValue) ∨
      (e.isPredicate = false ∧ e.type.isBoolean ∧ e' = equal e (int 1)) ∨
      ∃ value, e.truth? = some value ∧ e' = truth value := by
  rw [adapted_eq] at h
  split at h
  · cases h
  · split at h
    · rename_i value ht _
      exact .inr (.inr (.inr ⟨value, ht, (Except.ok.inj h).symm⟩))
    · have he := Except.ok.inj h
      cases native with
      | true => exact .inl he.symm
      | false =>
        rw [← he]
        rcases converted_cases _ e with hc | hc | hc
        · exact .inl hc
        · exact .inr (.inl hc)
        · exact .inr (.inr (.inl hc))

theorem fits_of_adapted {native : Bool} {position : Position} {e e' : Expr}
    (h : adapted native position e = .ok e') : e'.Fits native position := by
  rw [adapted_eq] at h
  split at h
  · cases h
  · rename_i hs
    cases position with
    | predicate =>
      cases ht : e.truth? with
      | some value =>
        simp only [ht, Except.ok.injEq] at h
        subst h
        cases value <;> simp [Fits, truth, truth?, binaryOf, isPredicate, BinaryOp.isComparison]
      | none =>
        simp only [ht, Except.ok.injEq] at h
        subst h
        cases native with
        | true => simp [Fits, ht]
        | false =>
          simp only [Bool.false_eq_true, if_false, converted, asPredicate]
          split
          · rename_i hp
            simp [Fits, ht, hp]
          · split
            · simp [Fits, truth?, equal, binaryOf, isPredicate, BinaryOp.isComparison]
            · rename_i hb
              exact ⟨ht, fun _ => .inr (by simpa using hb)⟩
    | value =>
      simp only [Except.ok.injEq] at h
      subst h
      cases native with
      | true => simp [Fits]
      | false =>
        simp only [Bool.false_eq_true, if_false, converted]
        split
        · simp [Fits]
        · rename_i hp
          simpa [Fits] using hp
    | singleValue =>
      simp only [true_and, Bool.not_eq_true] at hs
      simp only [Except.ok.injEq] at h
      subst h
      cases native with
      | true => simp [Fits, hs]
      | false =>
        simp only [Bool.false_eq_true, if_false, converted]
        split
        · simp [Fits, asValue, isEntity, isPredicate]
        · rename_i hp
          simpa [Fits, hs] using hp

end Comprehension.Sql.Expr
