import Comprehension.Proofs.Mapping

/-!
Which aliases a supply of fresh names has handed out. An alias that is drawn has not been handed out
before, so everything that was built before avoids it.
-/
namespace Comprehension.Fresh

/-- The stems of aliases: of tables and of sub-statements. -/
def stems : List String := ["t", "q"]

/-- Whether an alias has been handed out. -/
def Issued (f : Fresh) (a : String) : Prop :=
  ∃ stem ∈ stems, ∃ n, n < f.count stem ∧ a = stem ++ toString n

/-- Whether a supply has handed out all that another one has. -/
def Extends (f f' : Fresh) : Prop := ∀ stem, f.count stem ≤ f'.count stem

/-- Whether an alias has been handed out between two states of a supply. -/
def New (f f' : Fresh) (a : String) : Prop := ¬ f.Issued a ∧ f'.Issued a

theorem toDigits_inj {n m : Nat} (h : Nat.toDigits 10 n = Nat.toDigits 10 m) : n = m := by
  have digits := congrArg (Nat.ofDigitChars 10 · 0) h
  simpa using digits

/-- An alias tells its stem and its number. -/
theorem alias_inj {stem stem' : String} {n m : Nat} (hs : stem ∈ stems) (hs' : stem' ∈ stems)
    (h : stem ++ toString n = stem' ++ toString m) : stem = stem' ∧ n = m := by
  have chars := congrArg String.toList h
  simp only [stems, List.mem_cons, List.not_mem_nil, or_false] at hs hs'
  rcases hs with rfl | rfl <;> rcases hs' with rfl | rfl
  · exact ⟨rfl, toDigits_inj (by simpa using chars)⟩
  · simp at chars
  · simp at chars
  · exact ⟨rfl, toDigits_inj (by simpa using chars)⟩

theorem count_bump (stem s : String) (counts : List (String × Nat)) :
    ((bump stem counts).lookup s).getD 0 =
      (counts.lookup s).getD 0 + if s = stem then 1 else 0 := by
  induction counts with
  | nil =>
    by_cases h : s = stem
    · simp [bump, h]
    · simp [bump, List.lookup_cons, beq_eq_false_iff_ne.mpr h, h]
  | cons entry rest ih =>
    obtain ⟨first, n⟩ := entry
    unfold bump
    split
    · rename_i hf
      subst hf
      by_cases h : s = first
      · simp [h]
      · simp [List.lookup_cons, beq_eq_false_iff_ne.mpr h, h]
    · rename_i hf
      by_cases h : s = first
      · simp [h, hf]
      · simpa [List.lookup_cons, beq_eq_false_iff_ne.mpr h] using ih

theorem count_named (f : Fresh) (stem s : String) :
    (f.named stem).2.count s = f.count s + if s = stem then 1 else 0 :=
  count_bump stem s f.counts

theorem Extends.refl (f : Fresh) : f.Extends f := fun _ => Nat.le_refl _

theorem Extends.trans {f f₁ f' : Fresh} (h : f.Extends f₁) (h' : f₁.Extends f') : f.Extends f' :=
  fun stem => Nat.le_trans (h stem) (h' stem)

theorem Extends.issued {f f' : Fresh} (h : f.Extends f') {a : String} (ha : f.Issued a) :
    f'.Issued a := by
  obtain ⟨stem, hs, n, hn, rfl⟩ := ha
  exact ⟨stem, hs, n, Nat.lt_of_lt_of_le hn (h stem), rfl⟩

theorem extends_named (f : Fresh) (stem : String) : f.Extends (f.named stem).2 := by
  intro s
  rw [count_named]
  omega

theorem extends_key (f : Fresh) : f.Extends f.key.2 := fun _ => Nat.le_refl _

/-- An alias that is drawn has not been handed out before. -/
theorem new_named {stem : String} (hs : stem ∈ stems) (f : Fresh) :
    New f (f.named stem).2 (f.named stem).1 := by
  refine ⟨?_, stem, hs, f.count stem, ?_, rfl⟩
  · rintro ⟨stem', hs', n, hn, h⟩
    obtain ⟨rfl, rfl⟩ := alias_inj hs hs' h
    exact Nat.lt_irrefl _ hn
  · rw [count_named]
    simp

theorem New.mono {f₀ f f' f₁ : Fresh} {a : String} (h : New f f' a) (before : f₀.Extends f)
    (after : f'.Extends f₁) : New f₀ f₁ a :=
  ⟨fun ha => h.1 (before.issued ha), after.issued h.2⟩

end Comprehension.Fresh
