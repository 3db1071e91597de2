import Comprehension.Proofs.Paging

/-!
Queries over a table that filter rows, select a scalar and apply operators to what is selected. The
statement that such a query is prepared to yields what the operators make of the selected values,
from left to right.
-/
namespace Comprehension

/-- Types of one value: neither of an object nor of a sequence. -/
def ValueType.isScalar (type : ValueType) : Bool :=
  match type.underlying with
  | .entity _ | .object | .sequence _ => false
  | _ => true

namespace Query

open Method.Registry (defaults)
open Sql (Datum Interpretation Items clauseValue)
open Sql.Statement (Yields)

/-- An operator that makes a sequence of rows of a sequence of rows. -/
inductive Step where
  | take (count : Nat) (type : ValueType)
  | skip (offset : Nat) (type : ValueType)
  | distinct

namespace Step

def operator : Step → Operator
  | take n type => .take (.constant (.int n) type)
  | skip n type => .skip (.constant (.int n) type)
  | distinct => .distinct

def apply : Step → List Datum → List Datum
  | take n _, data => data.take n
  | skip n _, data => data.drop n
  | distinct, data => data.eraseDups

end Step

/-- What becomes of the rows in the end. -/
inductive Ending where
  | rows
  | count
  | longCount

namespace Ending

def operators : Ending → List Operator
  | rows => []
  | count => [.count]
  | longCount => [.longCount]

def apply : Ending → List Datum → List Datum
  | rows, data => data
  | count, data | longCount, data => [.int data.length]

end Ending

section Operators

variable (registry : Method.Registry) (scope : Scope) {I : Interpretation} {items : Items}
  {data : List Datum} {s : Sql.Statement}

theorem Step.yields (step : Step) (h : Yields I items data s) (f : Fresh) :
    ∃ t f', step.operator.prepare registry scope s f = .ok (t, f') ∧
      Yields I items (step.apply data) t := by
  cases step with
  | take n type => exact h.take n type f
  | skip n type => exact h.skip n type f
  | distinct => exact h.distinct f

/-- An operator is applied to a sequence. -/
theorem prepareOperators_cons {t t' : Sql.Statement} {operator : Operator} {rest : List Operator}
    {f f₁ f' : Fresh} (sequence : s.shape.isSequence = true)
    (first : operator.prepare registry scope s f = .ok (t, f₁))
    (others : prepareOperators registry scope t rest f₁ = .ok (t', f')) :
    prepareOperators registry scope s (operator :: rest) f = .ok (t', f') := by
  have required : s.requireSequence operator.name = .ok () := if_pos sequence
  exact Supply.bind_eq_ok.mpr ⟨(), f, Supply.lift_eq_ok.mpr ⟨required, rfl⟩,
    Supply.bind_eq_ok.mpr ⟨t, f₁, first, others⟩⟩

theorem Ending.exists_rows (ending : Ending) (h : Yields I items data s) (f : Fresh) :
    ∃ t f', prepareOperators registry scope s ending.operators f = .ok (t, f') ∧ t.checked = .ok t ∧
      t.rows I items = ending.apply data := by
  cases ending with
  | rows => exact ⟨s, f, rfl, Sql.Statement.checked_of_boolean h.boolean, h.rows⟩
  | count =>
    obtain ⟨t, f', counted, checked, rows⟩ := h.count .int32 f
    exact ⟨t, f', prepareOperators_cons registry scope h.sequence counted rfl, checked, rows⟩
  | longCount =>
    obtain ⟨t, f', counted, checked, rows⟩ := h.count .int64 f
    exact ⟨t, f', prepareOperators_cons registry scope h.sequence counted rfl, checked, rows⟩

/-- Operators are applied from left to right. -/
theorem prepareOperators_rows (steps : List Step) (ending : Ending) (h : Yields I items data s)
    (f : Fresh) :
    ∃ t f', prepareOperators registry scope s (steps.map Step.operator ++ ending.operators) f =
        .ok (t, f') ∧ t.checked = .ok t ∧
      t.rows I items = ending.apply (steps.foldl (fun data step => step.apply data) data) := by
  induction steps generalizing s data f with
  | nil => exact ending.exists_rows registry scope h f
  | cons step steps ih =>
    obtain ⟨t, f₁, applied, yields⟩ := step.yields registry scope h f
    obtain ⟨t', f', others, checked, rows⟩ := ih yields f₁
    exact ⟨t', f', prepareOperators_cons registry scope h.sequence applied others, checked, rows⟩

end Operators

section Selection

variable {registry : Method.Registry} {scope : Scope} {I : Interpretation} {items : Items}

/-- What is selected of the rows of a table that fulfil conditions. -/
def selectedValues (I : Interpretation) (items : Items) (key : Nat) (type : String)
    (conditions : List Sql.Expr) (projection : Sql.Expr) : List Datum :=
  ((I.table type).filter fun d =>
    conditions.all fun c => (c.value I (Function.update items key d)).isTrue).map fun d =>
      projection.value I (Function.update items key d)

/-- The condition of a row of filters. -/
def conjunction (condition : Option Sql.Expr) (conditions : List Sql.Expr) : Option Sql.Expr :=
  conditions.foldl (fun existing c => some (Sql.conjoined existing c)) condition

theorem prepareClauses_filters {predicates : List Expr} {conditions : List Sql.Expr} {f f' : Fresh}
    (h : prepareArguments registry scope predicates f = .ok (conditions, f')) (body : Body) :
    prepareClauses registry scope body (predicates.map .filter) f =
      .ok ((scope, { body with condition := conjunction body.condition conditions }), f') := by
  induction predicates generalizing body conditions f with
  | nil =>
    obtain ⟨rfl, rfl⟩ := Supply.pure_eq_ok.mp h
    rfl
  | cons predicate rest ih =>
    obtain ⟨condition, f₁, conditions', prepared, hr, rfl⟩ := prepareArguments_cons_eq_ok h
    have first : (Clause.filter predicate).prepare registry scope body f =
        .ok ((scope, { body with condition := some (Sql.conjoined body.condition condition) }), f₁) :=
      Supply.bind_eq_ok.mpr ⟨condition, f₁, prepared, rfl⟩
    exact Supply.bind_eq_ok.mpr ⟨_, f₁, first, ih hr _⟩

/-- The filters hold together. -/
theorem all_conjunction (conditions : List Sql.Expr) (condition : Option Sql.Expr) (row : Items) :
    ((clauseValue I (conjunction condition conditions)).all fun holds => (holds row).isTrue) =
      (((clauseValue I condition).all fun holds => (holds row).isTrue) &&
        conditions.all fun c => (c.value I row).isTrue) := by
  induction conditions generalizing condition with
  | nil => exact (Bool.and_true _).symm
  | cons c rest ih =>
    have first : ((clauseValue I (some (Sql.conjoined condition c))).all fun holds =>
        (holds row).isTrue) = (((clauseValue I condition).all fun holds => (holds row).isTrue) &&
          (c.value I row).isTrue) := by
      cases condition with
      | none => rfl
      | some existing => exact Sql.Expr.isTrue_and existing c
    exact (ih _).trans (by rw [first, List.all_cons, Bool.and_assoc])

theorem boolean_conjunction {conditions : List Sql.Expr}
    (h : ∀ c ∈ conditions, c.type.isBoolean = true) {condition : Option Sql.Expr}
    (boolean : ∀ c ∈ condition, c.type.isBoolean = true) :
    ∀ c ∈ conjunction condition conditions, c.type.isBoolean = true := by
  induction conditions generalizing condition with
  | nil => exact boolean
  | cons c rest ih =>
    obtain ⟨first, others⟩ := List.forall_mem_cons.mp h
    refine ih others fun joined mem => ?_
    obtain rfl := Option.some.inj mem
    cases condition with
    | none => exact first
    | some existing => rfl

/-- The statement of a table, filters and a scalar selects row by row. -/
theorem yields_statement (I : Interpretation) (items : Items) {key : Nat} {type : String}
    {conditions : List Sql.Expr} {projection : Sql.Expr}
    (boolean : ∀ c ∈ conditions, c.type.isBoolean = true)
    (rowwise : projection.kind.isRowwise = true) (single : projection.kind ≠ .compound) :
    Yields I items (selectedValues I items key type conditions projection)
      (Body.statement ⟨[.ofSource key (.unresolved type) .inner], conjunction none conditions, []⟩
        projection none) := by
  have plain : (Body.statement ⟨[.ofSource key (.unresolved type) .inner],
      conjunction none conditions, []⟩ projection none).Plain :=
    ⟨rowwise, single, boolean_conjunction boolean nofun, rfl, rfl, rfl, rfl⟩
  refine ⟨.inl plain, ?_⟩
  rw [plain.rows_unlimited rfl rfl]
  change ((Sql.tableRows I [.ofSource key (.unresolved type) .inner] items).filter fun row =>
    (clauseValue I (conjunction none conditions)).all fun holds => (holds row).isTrue).map
      (projection.value I) = _
  rw [Sql.tableRows_ofSource, List.filter_map, List.map_map]
  simp only [all_conjunction]
  rfl

end Selection

/-- However often rows are taken, skipped and made distinct, and whether or not they are counted in the
end, the prepared statement has the rows that these steps give one after the other. -/
theorem Model.rows_prepare (I : Interpretation) (items : Items) {item type : String}
    {predicates : List Expr} {selector : Expr} {conditions : List Sql.Expr} {projection : Sql.Expr}
    {f₀ f₁ f₂ : Fresh}
    (filters : prepareArguments defaults [(item, .tableReference f₀.nextKey (.entity type))]
      predicates f₀.key.2 = .ok (conditions, f₁))
    (boolean : ∀ c ∈ conditions, c.type.isBoolean = true)
    (select : selector.prepare defaults [(item, .tableReference f₀.nextKey (.entity type))] f₁ =
      .ok (projection, f₂))
    (scalar : projection.type.isScalar = true) (steps : List Step) (ending : Ending) :
    ∃ s f, Model.prepare defaults
        { main := .table item type
          clauses := predicates.map .filter
          yield := .select selector
          operators := steps.map Step.operator ++ ending.operators } f₀ = .ok (s, f) ∧
      s.rows I items = ending.apply (steps.foldl (fun data step => step.apply data)
        (selectedValues I items f₀.nextKey type conditions projection)) := by
  have rowwise : projection.kind.isRowwise = true := by
    refine selector.rowwise_of_prepare (fun name e found => ?_) select
    obtain ⟨before, after, same, -⟩ := List.lookup_eq_some_iff.mp found
    have mem : (name, e) ∈ [(item, Sql.Expr.tableReference f₀.nextKey (.entity type))] := by
      simp [same]
    cases List.mem_singleton.mp mem
    rfl
  have single : projection.kind ≠ .compound := by
    intro compound
    cases projection with
    | compound members => cases scalar
    | _ => cases compound
  obtain ⟨s, f, prepared, checked, rows⟩ := prepareOperators_rows defaults
    [(item, .tableReference f₀.nextKey (.entity type))] steps ending
    (yields_statement I items boolean rowwise single) f₂
  refine ⟨s, f, ?_, rows⟩
  exact Supply.bind_eq_ok.mpr ⟨_, f₀.key.2, rfl,
    Supply.bind_eq_ok.mpr ⟨_, f₁, prepareClauses_filters filters _,
      Supply.bind_eq_ok.mpr ⟨_, f₂, Supply.bind_eq_ok.mpr ⟨projection, f₂, select, rfl⟩,
        Supply.bind_eq_ok.mpr ⟨s, f, prepared, Supply.lift_eq_ok.mpr ⟨checked, rfl⟩⟩⟩⟩⟩

/-- Five cooks, some of whom share a name. -/
def staff : Interpretation :=
  let cook (id : Int) (name : String) : Datum :=
    .record [("ID", .int id), ("FirstName", .value (.string name))]
  { table := fun _ => [cook 1 "Ada", cook 2 "Bob", cook 3 "Ada", cook 4 "Ada", cook 5 "Cid"]
    apply := fun _ _ => .null
    leaf := fun _ => .null
    le := fun _ _ => false }

/-- The names of the cooks but the oldest one, without the first, each once, without the first. -/
theorem staff_rows :
    let cook : Expr := .item "c" (.entity "Cook")
    ∃ s f, Model.prepare defaults
        { main := .table "c" "Cook"
          clauses := [.filter (.binary .greaterThan (.member cook "ID" .int32)
            (.constant (.int 1) .int32) .boolean)]
          yield := .select (.member cook "FirstName" .string)
          operators := [.skip (.constant (.int 1) .int32), .take (.constant (.int 3) .int32),
            .distinct, .skip (.constant (.int 1) .int32)] } {} = .ok (s, f) ∧
      s.rows staff (fun _ => .null) = [.value (.string "Cid")] := by
  intro cook
  let start : Fresh := {}
  let row : Sql.Expr := .tableReference start.nextKey (.entity "Cook")
  have filters : prepareArguments defaults [("c", row)]
      [.binary .greaterThan (.member cook "ID" .int32) (.constant (.int 1) .int32) .boolean]
      start.key.2 = .ok ([.binaryOf .greaterThan (.member row "ID" .int32)
        (.constant (.int 1) .int32)], start.key.2) := rfl
  have select : (Expr.member cook "FirstName" .string).prepare defaults [("c", row)]
      start.key.2 = .ok (.member row "FirstName" .string, start.key.2) := rfl
  have boolean : ∀ c ∈ [Sql.Expr.binaryOf .greaterThan (.member row "ID" .int32)
      (.constant (.int 1) .int32)], c.type.isBoolean = true := List.forall_mem_singleton.mpr rfl
  obtain ⟨s, f, prepared, rows⟩ := Model.rows_prepare staff (fun _ => .null) filters boolean select
    rfl [.skip 1 .int32, .take 3 .int32, .distinct, .skip 1 .int32] .rows
  refine ⟨s, f, prepared, rows.trans ?_⟩
  decide +kernel

end Query

end Comprehension
