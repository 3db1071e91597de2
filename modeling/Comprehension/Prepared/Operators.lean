import Comprehension.Fresh
import Comprehension.Sql.Draft
import Comprehension.Sql.JoinTree

/-!
Result operators on statements. An operator that cannot join the clauses already there makes the
statement the source of a new one.
-/
namespace Comprehension.Sql

open Supply (freshAlias freshKey)

/-- A projection that has the name of a column in the statement around it. -/
def Expr.withColumnName : Expr → Expr
  | .named n => .named n
  | .compound members => .compound members
  | .tableReference key type => .tableReference key type
  | .column c => .column c
  | .entity e => .entity e
  | .entityReference tableAlias name e => .entityReference tableAlias name e
  | other => .named ⟨none, other⟩

theorem Expr.type_withColumnName (e : Expr) : e.withColumnName.type = e.type := by
  cases e <;> rfl

namespace Statement

def rowNumberName : String := "ROW_NUMBER"

/-- The statement as a source of rows: its projection has a name, and an order that limits nothing
is dropped. -/
def asSource (s : Statement) : Statement :=
  { s with
    projection := s.projection.withColumnName
    orderings := if s.top.isSome then s.orderings else [] }

def nested (s : Statement) : Supply (Statement × Expr) := do
  let inner := (← s.checked).asSource
  let type := inner.projection.type
  let key ← freshKey
  let tableAlias ← freshAlias "q"
  let reference := Expr.tableReference key type
  return (
    { projection := reference
      tables := [.ofSource key (.statement tableAlias inner) .inner]
      condition := none
      grouping := none
      orderings := []
      top := none
      isDistinct := false
      rowNumber := none
      rowOffset := none
      shape := .sequence type },
    reference)

def nestedIf (condition : Bool) (s : Statement) : Supply Statement :=
  if condition then do return (← s.nested).1 else pure s

def aggregate (function : Aggregate) (type? : Option ValueType) (s : Statement) :
    Supply Statement := do
  let s ← s.nestedIf s.limitsRows
  let type := type?.getD s.projection.type
  -- One value of all rows has no order.
  return { s with
    projection := .aggregation function s.projection type
    orderings := []
    shape := .scalar type }

def take (count : Expr) (s : Statement) : Supply Statement := do
  match s.rowNumber, s.rowOffset with
  | some rowNumber, some offset =>
    -- Behind skipped rows the row number is bounded, so nothing is nested.
    return s.withCondition (.binaryOf .lessThanOrEqual rowNumber (.add offset count))
  | _, _ =>
    let s ← s.nestedIf s.top.isSome
    return { s with top := some count }

def numbering (s : Statement) : List Ordering :=
  if s.orderings.isEmpty then [⟨.int 1, .asc⟩] else s.orderings

/-- The statement with the number of each row beside what it selects. -/
def numbered (s : Statement) : Statement :=
  { s with
    projection := .compound
      [⟨some Named.defaultName, s.projection⟩, ⟨some rowNumberName, .rowNumber s.numbering⟩]
    orderings := []
    shape := .sequence .object }

/-- The rows after the first ones. The statement becomes a source that also numbers its rows, and
the new statement keeps the larger numbers. -/
def skip (offset : Expr) (s : Statement) : Supply Statement := do
  let s ← s.nestedIf s.limitsRows
  let type := s.projection.type
  let (outer, reference) ← s.numbered.nested
  let rowNumber := Expr.member reference rowNumberName .int64
  return { outer.withCondition (.binaryOf .greaterThan rowNumber offset) with
    projection := .member reference Named.defaultName type
    orderings := [⟨rowNumber, .asc⟩]
    rowNumber := some rowNumber
    rowOffset := some offset
    shape := .sequence type }

/-- One row: of `rows` rows, so that a second one can be noticed where there must be none. -/
def singleRow (rows : Int) (orDefault : Bool) (s : Statement) : Supply Statement := do
  let s ← s.nestedIf s.top.isSome
  return { s with top := some (.int rows), shape := .singleValue s.projection.type orDefault }

def distinct (s : Statement) : Supply Statement := do
  let s ← s.nestedIf (s.top.isSome || s.rowNumber.isSome)
  return { s with isDistinct := true }

def requireSequence (operator : String) (s : Statement) : Except Error Unit :=
  if s.shape.isSequence then .ok ()
  else .error (.unsupportedOperator operator .afterSingleValue)

end Statement

end Comprehension.Sql
