import Comprehension.Compile
import Comprehension.Proofs.Idempotence
import Comprehension.Proofs.Inside
import Comprehension.Proofs.Preparation
import Comprehension.Proofs.Scoping

/-!
The statement that a query is compiled to. No alias stands for two tables at once, every column
belongs to a table in sight, and resolving the statement again leaves it alone just where it is
steady.
-/
namespace Comprehension

open Method.Registry (defaults)
open Sql (Addressed Ground Node Prepares Statement)

namespace Query.Model

variable {schema : Schema} {options : Options} {m : Model} {s : Statement} {f₀ f : Fresh}

theorem prepares_of_statement
    (h : m.statement defaults (Mapping.ofSchema schema) options f₀ = .ok (s, f)) :
    ∃ t f₁, Ground f₁ [.statement t] ∧
      t.resolve (Mapping.ofSchema schema) options.nativeBoolean f₁ = .ok (s, f) := by
  obtain ⟨t, f₁, prepared, resolved⟩ := Supply.bind_eq_ok.mp h
  exact ⟨t, f₁, ground_of_prepare prepared, resolved⟩

/-- A compiled statement is left as it is by another resolution, which draws no name either, if and
only if it is steady. -/
theorem resolve_statement_iff
    (h : m.statement defaults (Mapping.ofSchema schema) options f₀ = .ok (s, f)) :
    s.resolve (Mapping.ofSchema schema) options.nativeBoolean f = .ok (s, f) ↔
      (Node.statement s).Steady := by
  obtain ⟨t, f₁, ground, resolved⟩ := prepares_of_statement h
  have ready := (ground.prepared _ List.mem_cons_self).ready_of_prepared
  exact Statement.resolve_settled (Statement.settled_of_resolve ready resolved)

def unassignedCooks : Model :=
  { main := .table "c" "Cook"
    clauses := [.filter (.binary .equal
      (.member (.item "c" (.entity "Cook")) "Kitchen" (.entity "Kitchen"))
      (.constant .null (.entity "Kitchen")) .boolean)]
    yield := .select (.member (.item "c" (.entity "Cook")) "FirstName" .string)
    operators := [] }

/-- The names of the cooks who work in a kitchen after the first ten and under its name. -/
def housedCooks : Model :=
  let cook : Expr := .item "c" (.entity "Cook")
  let kitchen : Expr := .item "k" (.entity "Kitchen")
  let own : Expr := .member cook "Kitchen" (.entity "Kitchen")
  let later : Model :=
    { main := .table "k" "Kitchen"
      clauses := []
      yield := .select kitchen
      operators := [.skip (.constant (.int 10) .int32)] }
  { main := .table "c" "Cook"
    clauses := [.source ⟨"k", .entity "Kitchen", .subQuery later⟩,
      .filter (.binary .equal own kitchen .boolean),
      .filter (.binary .equal (.member own "Name" .string) (.member kitchen "Name" .string)
        .boolean)]
    yield := .select (.member cook "FirstName" .string)
    operators := [] }

theorem housedCooks_resolved_again :
    ∃ s f, housedCooks.statement defaults (Mapping.ofSchema .restaurant) {} {} = .ok (s, f) ∧
      s.aliases = ["t0", "q1", "t2"] ∧ (Node.statement s).Steady ∧
      s.resolve (Mapping.ofSchema .restaurant) false f = .ok (s, f) := by
  have checked : (housedCooks.statement defaults (Mapping.ofSchema .restaurant) {} {}).toOption.any
      (fun result => result.1.aliases = ["t0", "q1", "t2"] &&
        (Node.statement result.1).passes Node.isSteady 10) = true := by
    decide +kernel
  obtain ⟨⟨s, f⟩, compiled, checked⟩ := Outcome.exists_of_any checked
  rw [Bool.and_eq_true] at checked
  have steady : (Node.statement s).Steady := Node.everywhere_of_passes Node.isSteady_sound checked.2
  exact ⟨s, f, compiled, of_decide_eq_true checked.1, steady,
    (resolve_statement_iff compiled).mpr steady⟩

/-- A kitchen that is compared with null has been replaced by its key, while the null is still
typed as a kitchen. -/
theorem unassignedCooks_refused :
    ∃ s f, unassignedCooks.statement defaults (Mapping.ofSchema .restaurant) {} {} = .ok (s, f) ∧
      s.resolve (Mapping.ofSchema .restaurant) false f =
        .error (.unsupportedExpression .column .comparedWithEntity) := by
  have refused : (unassignedCooks.statement defaults (Mapping.ofSchema .restaurant) {}
      {}).toOption.any (fun result =>
        Outcome.error? (result.1.resolve (Mapping.ofSchema .restaurant) false result.2) =
          some (.unsupportedExpression .column .comparedWithEntity)) = true := by
    decide +kernel
  obtain ⟨⟨s, f⟩, compiled, refused⟩ := Outcome.exists_of_any refused
  exact ⟨s, f, compiled, Outcome.error?_eq_some.mp (of_decide_eq_true refused)⟩

/-- The aliases of a compiled statement differ from each other and from those around them, and every
column that is written belongs to a table in sight. -/
theorem statement_scoped
    (h : m.statement defaults (Mapping.ofSchema schema) options f₀ = .ok (s, f)) :
    (Node.statement s).Apart ∧ Addressed [] (.statement s) := by
  obtain ⟨t, f₁, ground, resolved⟩ := prepares_of_statement h
  have prepared := ground.prepared _ List.mem_cons_self
  have ready := prepared.ready_of_prepared
  exact ⟨Statement.apart_of_resolve ready (ground.apart _ List.mem_cons_self)
      (ground.issued _ List.mem_cons_self) resolved,
    Statement.addressed_of_resolve ready (prepared.served_of_prepared _) resolved⟩

/-- The cooks whose kitchen is called like one of the cooks after the first ten. -/
def namesakeKitchens : Model :=
  let cook : Expr := .item "c" (.entity "Cook")
  let kitchenName : Expr := .member (.member cook "Kitchen" (.entity "Kitchen")) "Name" .string
  let later : Model :=
    { main := .table "c" "Cook"
      clauses := []
      yield := .select (.member cook "FirstName" .string)
      operators := [.skip (.constant (.int 10) .int32)] }
  { main := ⟨"n", .string, .subQuery later⟩
    clauses := [.source (.table "c" "Cook"),
      .filter (.binary .equal kitchenName (.item "n" .string) .boolean)]
    yield := .select cook
    operators := [] }

theorem namesakeKitchens_scoped :
    ∃ s f, namesakeKitchens.statement defaults (Mapping.ofSchema .restaurant) {} {} = .ok (s, f) ∧
      s.aliases = ["q1", "t1", "t2"] ∧ (Node.statement s).Apart ∧ Addressed [] (.statement s) := by
  have aliases : (namesakeKitchens.statement defaults (Mapping.ofSchema .restaurant) {}
      {}).toOption.any (fun result => result.1.aliases = ["q1", "t1", "t2"]) = true := by
    decide +kernel
  obtain ⟨⟨s, f⟩, compiled, aliases⟩ := Outcome.exists_of_any aliases
  exact ⟨s, f, compiled, of_decide_eq_true aliases, statement_scoped compiled⟩

theorem mapped_of_statement
    (h : m.statement defaults (Mapping.ofSchema schema) options f₀ = .ok (s, f)) :
    (Node.statement s).Mapped schema options.nativeBoolean fun _ _ => False := by
  obtain ⟨t, f₁, ground, resolved⟩ := prepares_of_statement h
  have prepared := ground.prepared _ List.mem_cons_self
  have ready := prepared.ready_of_prepared
  exact ⟨Statement.settled_of_resolve ready resolved,
    Statement.served_of_resolve ready (prepared.served_of_prepared _) resolved⟩

/-- In a compiled statement a name stands nowhere but at a projection as a whole, so none hides an
alias or a column. -/
theorem projection_of_named {n : Node} {x : Sql.Named}
    (h : m.statement defaults (Mapping.ofSchema schema) options f₀ = .ok (s, f))
    (inside : Node.Inside (.statement s) n) (hx : .expression (.named x) ∈ n.parts) :
    ∃ t, n = .statement t ∧ t.projection = .named x := by
  obtain ⟨offer, mapped⟩ := (mapped_of_statement h).inside inside
  exact mapped.named_part hx

end Query.Model

end Comprehension
