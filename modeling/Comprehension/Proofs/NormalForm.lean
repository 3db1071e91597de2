import Comprehension.Proofs.Acceptance

/-!
Conditions and values of a compiled statement. Where a condition has to stand there is a predicate,
or at least nothing boolean, and never a constant truth value; where a value has to stand there is
no predicate. Both hold at any depth: in operands, in statements that are operands and in sources.
-/
namespace Comprehension

namespace Sql

/-- The operands that have to be values. -/
def Expr.values : Expr → List Expr
  | .binary _ left right _ => [left, right]
  | .like expression pattern => [expression, pattern]
  | .likeEscape e | .convert _ e _ | .aggregation _ e _ => [e]
  | .case branches otherwise _ => branches.map Prod.snd ++ otherwise.toList
  | .function _ args _ _ => args
  | .rowNumber orderings => orderings.map Ordering.expression
  | .named n => [n.expression]
  | .compound members => members.map Named.expression
  | _ => []

/-- A value stands in a slot that asks for one, unless it is what a name is given to. -/
theorem Expr.value_slot {e value : Expr} (unnamed : e.kind ≠ .named) (h : value ∈ e.values) :
    ∃ position, position ≠ .predicate ∧ (position, value) ∈ e.slots := by
  cases e with
  | binary op left right type => exact ⟨.value, nofun, by simpa [values, slots] using h⟩
  | like expression pattern => exact ⟨.singleValue, nofun, by simpa [values, slots] using h⟩
  | likeEscape e | convert target e type =>
    exact ⟨.singleValue, nofun, by simpa [values, slots] using h⟩
  | case branches otherwise type =>
    refine ⟨.singleValue, nofun, ?_⟩
    rcases List.mem_append.mp h with h | h
    · obtain ⟨branch, hb, rfl⟩ := List.mem_map.mp h
      exact List.mem_append_left _ (List.mem_flatMap.mpr ⟨branch, hb, by simp⟩)
    · exact List.mem_append_right _ (List.mem_map_of_mem h)
  | function name args type isPredicate => exact ⟨.singleValue, nofun, List.mem_map_of_mem h⟩
  | aggregation aggregate e type =>
    obtain rfl := List.mem_singleton.mp h
    exact ⟨_, by split <;> nofun, List.mem_cons_self⟩
  | rowNumber orderings =>
    obtain ⟨ordering, ho, rfl⟩ := List.mem_map.mp h
    exact ⟨.singleValue, nofun, List.mem_map_of_mem (f := fun o : Ordering => (_, o.expression)) ho⟩
  | named n => exact absurd rfl unnamed
  | compound members =>
    obtain ⟨n, hn, rfl⟩ := List.mem_map.mp h
    exact ⟨.value, nofun, List.mem_map_of_mem (f := fun n : Named => (_, n.expression)) hn⟩
  | _ => cases h

theorem Expr.Fits.isPredicate {native : Bool} {position : Position} {e : Expr}
    (h : e.Fits native position) (value : position ≠ .predicate) (notNative : native = false) :
    e.isPredicate = false := by
  cases position with
  | predicate => exact absurd rfl value
  | value => exact h notNative
  | singleValue => exact h.2 notNative

namespace Node

def conditions : Node → List Expr
  | .expression e => e.criteria
  | .statement s => s.condition.toList

def values : Node → List Expr
  | .expression e => e.values
  | .statement s =>
    s.projection :: s.grouping.toList ++ s.orderings.map Ordering.expression ++ s.top.toList ++
      s.rowNumber.toList ++ s.rowOffset.toList

/-- Conditions are predicates and values are none. With a native boolean type the two are the same,
but even then no condition is a constant. -/
structure Normal (native : Bool) (n : Node) : Prop where
  undecided : ∀ e ∈ n.conditions, ∀ value type, e ≠ .constant (.bool value) type
  predicates : native = false → ∀ e ∈ n.conditions, e.isPredicate = true ∨ e.type.isBoolean = false
  values : native = false → ∀ e ∈ n.values, e.isPredicate = false

variable {schema : Schema} {native : Bool} {offer : Offer}

theorem Normal.ofFits {n : Node} (conditions : ∀ e ∈ n.conditions, e.Fits native .predicate)
    (values : native = false → ∀ e ∈ n.values, e.isPredicate = false) : n.Normal native := by
  refine ⟨fun e he value type same => ?_, fun notNative e he => (conditions e he).2 notNative, values⟩
  have undecided := (conditions e he).1
  rw [same] at undecided
  cases undecided

/-- But for a name, an expression that is settled is normal. -/
theorem normal_of_settled {e : Expr} (h : (Node.expression e).Settled schema native) :
    (Node.expression e).Normal native := by
  obtain ⟨-, -, fits⟩ := h.here
  refine .ofFits (fun operand ho => fits _ (Expr.criterion_slot ho)) fun notNative value hv => ?_
  obtain ⟨position, notPredicate, slot⟩ := Expr.value_slot h.ready.here.1 hv
  exact (fits _ slot).isPredicate notPredicate notNative

theorem statement_normal_of_settled {s : Statement} (h : (Node.statement s).Settled schema native) :
    (Node.statement s).Normal native := by
  obtain ⟨-, fits, -, -⟩ := h.here
  have clause (slot : Position × Expr) (hs : slot ∈ s.clauses) := fits slot (List.mem_cons_of_mem _ hs)
  refine .ofFits (fun e he => ?_) fun notNative e he => ?_
  · refine clause (.predicate, e) ?_
    simp [Statement.clauses, Option.mem_toList.mp he]
  · simp only [values, List.cons_append, List.mem_cons, List.mem_append, or_assoc] at he
    rcases he with rfl | he
    · have projection := fits _ List.mem_cons_self
      cases same : s.projection with
      | named n => rfl
      | _ =>
        rw [same] at projection
        exact projection notNative
    · have slot : (Position.value, e) ∈ s.clauses ∨ (Position.singleValue, e) ∈ s.clauses := by
        simp only [Statement.clauses, List.mem_append, List.mem_map, Prod.mk.injEq]
        simp only [List.mem_map] at he
        grind
      rcases slot with slot | slot
      · exact (clause _ slot).isPredicate nofun notNative
      · exact (clause _ slot).isPredicate nofun notNative

theorem Mapped.fits_of_named_part {n : Node} {x : Named} (h : n.Mapped schema native offer)
    (hx : .expression (.named x) ∈ n.parts) : x.expression.Fits native .value := by
  obtain ⟨s, rfl, same⟩ := h.named_part hx
  have projection := h.settled.here.2.1 _ List.mem_cons_self
  rw [same] at projection
  obtain ⟨name, e⟩ := x
  exact projection

theorem Mapped.normal_inside {s : Statement} (h : (Node.statement s).Mapped schema native offer)
    {n : Node} (inside : Inside (.statement s) n) : n.Normal native := by
  cases inside with
  | root => exact statement_normal_of_settled h.settled
  | part inside part =>
    obtain ⟨_, parent⟩ := h.inside inside
    have mapped := parent.part part
    cases n with
    | statement inner => exact statement_normal_of_settled mapped.settled
    | expression e =>
      by_cases unnamed : e.kind = .named
      · cases e with
        | named n =>
          have fits := parent.fits_of_named_part part
          exact .ofFits nofun fun notNative => List.forall_mem_singleton.mpr (fits notNative)
        | _ => cases unnamed
      · have settled := mapped.settled
        rw [unnamed_of_kind unnamed] at settled
        exact normal_of_settled settled

end Node

end Sql

namespace Query.Model

open Method.Registry (defaults)
open Sql (Node Statement)

variable {schema : Schema} {options : Options} {m : Model} {s : Statement} {f₀ f : Fresh}

/-- At any depth of a compiled statement, conditions are predicates and values are none, and no
condition is a constant. -/
theorem statement_normal
    (h : m.statement defaults (Mapping.ofSchema schema) options f₀ = .ok (s, f)) :
    ∀ n, Node.Inside (.statement s) n → n.Normal options.nativeBoolean :=
  fun _ inside => (mapped_of_statement h).normal_inside inside

/-- Whether a cook is an early one, of the cooks whose kitchen has a name. A comparison is selected,
and a constant stands in a condition. -/
def earlyCooks : Model :=
  let cook : Expr := .item "c" (.entity "Cook")
  let kitchenName : Expr := .member (.member cook "Kitchen" (.entity "Kitchen")) "Name" .string
  { main := .table "c" "Cook"
    clauses := [.filter (.binary .orElse (.constant (.bool false) .boolean)
      (.not (.binary .equal kitchenName (.constant .null .string) .boolean)) .boolean)]
    yield := .select (.binary .lessThan (.member cook "ID" .int32) (.constant (.int 10) .int32)
      .boolean)
    operators := [] }

theorem earlyCooks_normal :
    ∃ s f, earlyCooks.statement defaults (Mapping.ofSchema .restaurant) {} {} = .ok (s, f) ∧
      s.projection.kind = .case ∧ s.condition.any (·.kind = .logical) = true ∧
      ∀ n, Node.Inside (.statement s) n → n.Normal false := by
  have shape : (earlyCooks.statement defaults (Mapping.ofSchema .restaurant) {} {}).toOption.any
      (fun result => decide (result.1.projection.kind = .case) &&
        result.1.condition.any (·.kind = .logical)) = true := by
    decide +kernel
  obtain ⟨⟨s, f⟩, compiled, shape⟩ := Outcome.exists_of_any shape
  rw [Bool.and_eq_true, decide_eq_true_eq] at shape
  exact ⟨s, f, compiled, shape.1, shape.2, statement_normal compiled⟩

end Query.Model

end Comprehension
