import Comprehension.Proofs.OrderKeeping
import Comprehension.Query.Typing

/-!
Declared types. The type of a query's result follows from the type of one row and from the operators
alone; that of a statement stands in its shape, which every operator sets from what the statement
selects at that point. The two are the same whenever a row has the type that the query gives it.
-/
namespace Comprehension

open Method (Registry)

namespace Sql.Statement

variable {s t u : Statement} {type : ValueType} {f f' : Fresh}

/-- A statement that yields all of its rows, of the type that it selects. -/
structure Lists (type : ValueType) (s : Statement) : Prop where
  shape : s.shape = .sequence type
  selected : s.projection.type = type

namespace Lists

theorem nests {condition : Bool} (h : s.Lists type) (nests : Nests condition s u) :
    u.Lists type := by
  cases nests with
  | stays => exact h
  | around =>
    have named : s.asSource.projection.type = type :=
      s.projection.type_withColumnName.trans h.selected
    exact ⟨congrArg Shape.sequence named, named⟩

theorem aggregate {function : Aggregate} {type? : Option ValueType} (h : s.Lists type)
    (computed : s.aggregate function type? f = .ok (t, f')) :
    t.shape = .scalar (type?.getD type) := by
  obtain ⟨u, nests, rfl⟩ := aggregate_eq_ok computed
  rw [(h.nests nests).selected]

theorem take {count : Expr} (h : s.Lists type) (taken : s.take count f = .ok (t, f')) :
    t.Lists type := by
  rcases take_cases taken with ⟨_, _, -, -, rfl⟩ | ⟨-, u, nests, rfl⟩
  · exact ⟨h.shape, h.selected⟩
  · exact ⟨(h.nests nests).shape, (h.nests nests).selected⟩

/-- The item of a numbered row has the type of what was selected before. -/
theorem skip {offset : Expr} (h : s.Lists type) (skipped : s.skip offset f = .ok (t, f')) :
    t.Lists type := by
  obtain ⟨u, key, tableAlias, nests, rfl⟩ := skip_cases skipped
  have selected := (h.nests nests).selected
  exact ⟨congrArg Shape.sequence selected, selected⟩

theorem singleRow {rows : Int} {orDefault : Bool} (h : s.Lists type)
    (limited : s.singleRow rows orDefault f = .ok (t, f')) :
    t.shape = .singleValue type orDefault := by
  obtain ⟨u, nests, rfl⟩ := singleRow_cases limited
  rw [(h.nests nests).selected]

theorem distinct (h : s.Lists type) (run : s.distinct f = .ok (t, f')) : t.Lists type := by
  obtain ⟨u, nests, rfl⟩ := distinct_cases run
  exact ⟨(h.nests nests).shape, (h.nests nests).selected⟩

end Lists

end Sql.Statement

namespace Query

open Sql.Statement (Lists)

variable {registry : Registry} {scope : Scope} {s t : Sql.Statement} {type : ValueType}
  {f f' : Fresh}

/-- Operators after which there are still rows to go on with. -/
def Operator.isStage : Operator → Bool
  | .take _ | .skip _ | .distinct => true
  | _ => false

theorem Operator.resultType_of_stage {operator : Operator} (stage : operator.isStage = true) :
    operator.resultType type = type := by
  cases operator with
  | take | skip | distinct => rfl
  | _ => cases stage

/-- A stage keeps the type of the rows; any other operator yields one value of the type that it
declares. -/
theorem Operator.shape_of_prepare {operator : Operator} (h : s.Lists type)
    (run : operator.prepare registry scope s f = .ok (t, f')) :
    if operator.isStage then t.Lists type
    else t.shape.isSequence = false ∧
      t.shape.resultType = operator.resultType (.sequence type) := by
  have computed {function : Sql.Aggregate} {type? : Option ValueType}
      (run : s.aggregate function type? f = .ok (t, f')) :
      t.shape.isSequence = false ∧ t.shape.resultType = type?.getD type := by
    rw [h.aggregate run]
    exact ⟨rfl, rfl⟩
  have limited {rows : Int} {orDefault : Bool}
      (run : s.singleRow rows orDefault f = .ok (t, f')) :
      t.shape.isSequence = false ∧ t.shape.resultType = type := by
    rw [h.singleRow run]
    exact ⟨rfl, rfl⟩
  cases operator with
  | take count =>
    obtain ⟨e, f₁, -, taken⟩ := Supply.bind_eq_ok.mp run
    exact h.take taken
  | skip offset =>
    obtain ⟨e, f₁, -, skipped⟩ := Supply.bind_eq_ok.mp run
    exact h.skip skipped
  | distinct =>
    exact h.distinct run
  | first | single =>
    exact limited run
  | count | longCount | min | max | sum | average =>
    exact computed run
  | other name =>
    exact (Supply.throw_ne_ok.mp run).elim

/-- Whatever follows a single value is refused. -/
theorem prepareOperators_after_single {operator : Operator} {operators : List Operator}
    (single : s.shape.isSequence = false) :
    prepareOperators registry scope s (operator :: operators) f =
      .error (.unsupportedOperator operator.name .afterSingleValue) := by
  have refused : s.requireSequence operator.name =
      .error (.unsupportedOperator operator.name .afterSingleValue) := by
    rw [Sql.Statement.requireSequence, single]
    rfl
  rw [prepareOperators, refused]
  rfl

theorem prepareOperators_of_single {operators : List Operator} (single : s.shape.isSequence = false)
    (run : prepareOperators registry scope s operators f = .ok (t, f')) : operators = [] ∧ t = s := by
  cases operators with
  | nil =>
    exact ⟨rfl, (Supply.pure_eq_ok.mp run).1.symm⟩
  | cons operator rest =>
    rw [prepareOperators_after_single single] at run
    cases run

/-- The operators of a query declare the type of the statement that they lead to. -/
theorem resultType_of_prepareOperators {operators : List Operator} (h : s.Lists type)
    (run : prepareOperators registry scope s operators f = .ok (t, f')) :
    t.shape.resultType = operators.foldl Operator.resultType (.sequence type) := by
  induction operators generalizing s f with
  | nil =>
    obtain ⟨rfl, rfl⟩ := Supply.pure_eq_ok.mp run
    rw [h.shape]
    rfl
  | cons operator rest ih =>
    obtain ⟨u, f₁, first, others⟩ := prepareOperators_cons_eq_ok run
    rw [List.foldl_cons]
    have shape := operator.shape_of_prepare h first
    cases stage : operator.isStage with
    | true =>
      rw [stage, if_pos rfl] at shape
      rw [Operator.resultType_of_stage stage]
      exact ih shape others
    | false =>
      rw [stage, if_neg Bool.false_ne_true] at shape
      obtain ⟨single, declared⟩ := shape
      obtain ⟨rfl, rfl⟩ := prepareOperators_of_single single others
      exact declared

/-- What one row of the result is. -/
def Yield.row : Yield → Expr
  | .select selector => selector
  | .group key _ => key

theorem Yield.prepare_eq_ok {yield : Yield} {body : Body}
    (h : yield.prepare registry scope body f = .ok (s, f')) :
    ∃ e grouping, yield.row.prepare registry scope f = .ok (e, f') ∧
      s = body.statement e grouping := by
  cases yield with
  | select selector =>
    obtain ⟨e, row, rfl⟩ := prepare_select_eq_ok h
    exact ⟨e, none, row, rfl⟩
  | group key element =>
    obtain ⟨e, row, rfl⟩ := prepare_group_eq_ok h
    exact ⟨e, some e, row, rfl⟩

theorem Body.lists_statement (body : Body) (e : Sql.Expr) (grouping : Option Sql.Expr) :
    (body.statement e grouping).Lists e.type :=
  ⟨rfl, rfl⟩

namespace Model

variable {m : Model} {f₀ f₁ : Fresh}

/-- Prepares what one row of the result is, in the scope of the clauses. -/
def prepareRow (registry : Registry) (scope : Scope) (m : Model) : Supply Sql.Expr := do
  let (scope, _) ← m.prepareBody registry scope
  m.yield.row.prepare registry scope

theorem resultType_of_row (h : m.prepareIn registry scope f₀ = .ok (s, f)) :
    ∃ e f₁, m.prepareRow registry scope f₀ = .ok (e, f₁) ∧
      s.shape.resultType = m.operators.foldl Operator.resultType (.sequence e.type) := by
  obtain ⟨scope', body, f₁, t, f₂, drawn, yielded, applied⟩ := prepareIn_eq_ok h
  obtain ⟨e, grouping, row, rfl⟩ := Yield.prepare_eq_ok yielded
  exact ⟨e, f₂, Supply.bind_eq_ok.mpr ⟨(scope', body), f₁, drawn, row⟩,
    resultType_of_prepareOperators (body.lists_statement e grouping) applied⟩

/-- If a row has the type that the query declares, so has the whole result. -/
theorem resultType_eq_declared {e : Sql.Expr} (row : m.prepareRow registry scope f₀ = .ok (e, f₁))
    (declared : e.type = m.rowType) (h : m.prepareIn registry scope f₀ = .ok (s, f)) :
    s.shape.resultType = m.resultType := by
  obtain ⟨e', f₂, row', result⟩ := resultType_of_row h
  rw [row] at row'
  obtain ⟨rfl, rfl⟩ := Prod.mk.inj (Except.ok.inj row')
  rw [result, declared]
  cases m
  rfl

/-- The largest of the numbers of three kitchens, each taken once. -/
def largestOfThree : Model :=
  let cook : Expr := .item "c" (.entity "Cook")
  { main := .table "c" "Cook"
    clauses := []
    yield := .group (.member cook "KitchenID" (.nullable .int32)) cook
    operators := [.skip (.constant (.int 1) .int32), .take (.constant (.int 3) .int32), .distinct,
      .max] }

theorem largestOfThree_declared :
    ∃ e f₁ s f, largestOfThree.prepareRow .defaults [] {} = .ok (e, f₁) ∧
      e.type = largestOfThree.rowType ∧
      largestOfThree.prepareIn .defaults [] {} = .ok (s, f) ∧
      s.shape.resultType = largestOfThree.resultType ∧
      largestOfThree.resultType = .nullable .int32 := by
  have declared : (largestOfThree.prepareRow .defaults [] {}).toOption.any
      (fun row => decide (row.1.type = largestOfThree.rowType)) = true := by
    decide +kernel
  have success : (largestOfThree.prepareIn .defaults [] {}).toOption.any (fun _ => true) = true := by
    decide +kernel
  obtain ⟨⟨e, f₁⟩, row, declared⟩ := Outcome.exists_of_any declared
  obtain ⟨⟨s, f⟩, prepared, -⟩ := Outcome.exists_of_any success
  have declared := of_decide_eq_true declared
  exact ⟨e, f₁, s, f, row, declared, prepared, resultType_eq_declared row declared prepared, rfl⟩

end Model

end Query

end Comprehension
