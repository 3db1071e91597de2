import Comprehension.Prepared.Query

/-!
Preparation on drafts. A query starts from an empty draft; its clauses are added to the draft, then
the projection with the shape of the result, and the result operators change what is there. Only a
draft that is complete becomes a statement.
-/
namespace Comprehension

open Supply (freshAlias freshKey)

namespace Sql.Draft

/-- The draft as a source of rows. -/
def asSource (d : Draft) : Draft :=
  { d with
    projection := d.projection.map Expr.withColumnName
    orderings := if d.top.isSome then d.orderings else [] }

/-- What a result operator is applied to. -/
def operand (d : Draft) : Except Error Expr :=
  match d.projection with
  | some projection => .ok projection
  | none => .error (.contract .noOperand)

def nested (d : Draft) : Supply (Draft × Expr) := do
  let s ← d.freeze
  let inner ← (ofStatement s).asSource.freeze
  let type := inner.projection.type
  let key ← freshKey
  let tableAlias ← freshAlias "q"
  let reference := Expr.tableReference key type
  return (
    { projection := some reference
      tables := [.ofSource key (.statement tableAlias inner) .inner]
      shape := some (.sequence type) },
    reference)

def nestedIf (condition : Bool) (d : Draft) : Supply Draft :=
  if condition then do return (← d.nested).1 else pure d

def aggregate (function : Aggregate) (type? : Option ValueType) (d : Draft) : Supply Draft := do
  let d ← d.nestedIf d.limitsRows
  let projection ← d.operand
  let type := type?.getD projection.type
  return { d with
    projection := some (.aggregation function projection type)
    orderings := []
    shape := some (.scalar type) }

def take (count : Expr) (d : Draft) : Supply Draft := do
  match d.rowNumber, d.rowOffset with
  | some rowNumber, some offset =>
    return d.withCondition (.binaryOf .lessThanOrEqual rowNumber (.add offset count))
  | _, _ =>
    let d ← d.nestedIf d.top.isSome
    return { d with top := some count }

def numbering (d : Draft) : List Ordering :=
  if d.orderings.isEmpty then [⟨.int 1, .asc⟩] else d.orderings

def skip (offset : Expr) (d : Draft) : Supply Draft := do
  let d ← d.nestedIf d.limitsRows
  let projection ← d.operand
  let type := projection.type
  let numbered : Draft :=
    { d with
      projection := some (.compound
        [⟨some Named.defaultName, projection⟩,
          ⟨some Statement.rowNumberName, .rowNumber d.numbering⟩])
      orderings := []
      shape := some (.sequence .object) }
  let (outer, reference) ← numbered.nested
  let rowNumber := Expr.member reference Statement.rowNumberName .int64
  return { outer.withCondition (.binaryOf .greaterThan rowNumber offset) with
    projection := some (.member reference Named.defaultName type)
    orderings := [⟨rowNumber, .asc⟩]
    rowNumber := some rowNumber
    rowOffset := some offset
    shape := some (.sequence type) }

def singleRow (rows : Int) (orDefault : Bool) (d : Draft) : Supply Draft := do
  let d ← d.nestedIf d.top.isSome
  let projection ← d.operand
  return { d with
    top := some (.int rows)
    shape := some (.singleValue projection.type orDefault) }

def distinct (d : Draft) : Supply Draft := do
  let d ← d.nestedIf (d.top.isSome || d.rowNumber.isSome)
  return { d with isDistinct := true }

/-- A draft without a shape yields no sequence yet. -/
def requireSequence (operator : String) (d : Draft) : Except Error Unit :=
  if d.shape.any Shape.isSequence then .ok ()
  else .error (.unsupportedOperator operator .afterSingleValue)

end Sql.Draft

namespace Query

open Method (Registry)
open Sql (Draft)

def draftRows (registry : Registry) (scope : Scope) (itemName : String) : Expr → Supply Sql.Source
  | .queryable itemType => pure (.unresolved itemType)
  | .subQuery model => do
    let s ← model.prepareIn registry scope
    let inner ← (Draft.ofStatement s).asSource.freeze
    return .statement (← freshAlias "q") inner
  | other => throw (.unsupportedClause (.source itemName other.text))

def Source.draft (registry : Registry) (scope : Scope) (d : Draft) : Source → Supply (Scope × Draft)
  | ⟨itemName, _, source⟩ => do
    let key ← freshKey
    let rows ← draftRows registry scope itemName source
    return (
      (itemName, .tableReference key rows.rowType) :: scope,
      { d with tables := d.tables ++ [.ofSource key rows .inner] })

def Clause.draft (registry : Registry) (scope : Scope) (d : Draft) : Clause → Supply (Scope × Draft)
  | .source added => added.draft registry scope d
  | .filter predicate => do
    let condition ← predicate.prepare registry scope
    return (scope, d.withCondition condition)
  | .orderBy orderings => do
    let prepared ← prepareOrderings registry scope orderings
    return (scope, { d with orderings := prepared ++ d.orderings })
  | .bind name expression => do
    let prepared ← expression.prepare registry scope
    return ((name, prepared) :: scope, d)
  | .keyJoin itemName _ _ _ _ => throw (.unsupportedClause (.keyJoin itemName))
  | .groupJoin itemName _ => throw (.unsupportedClause (.groupJoin itemName))

def draftClauses (registry : Registry) (scope : Scope) (d : Draft) :
    List Clause → Supply (Scope × Draft)
  | [] => pure (scope, d)
  | clause :: rest => do
    let (scope, d) ← clause.draft registry scope d
    draftClauses registry scope d rest

def Yield.draft (registry : Registry) (scope : Scope) (d : Draft) : Yield → Supply Draft
  | .select selector => do
    let projection ← selector.prepare registry scope
    return { d with projection := some projection, shape := some (.sequence projection.type) }
  | .group key _ => do
    let projection ← key.prepare registry scope
    return { d with
      projection := some projection
      grouping := some projection
      shape := some (.sequence projection.type) }

def Operator.draft (registry : Registry) (scope : Scope) (d : Draft) : Operator → Supply Draft
  | .count => d.aggregate .count (some .int32)
  | .longCount => d.aggregate .count (some .int64)
  | .min => d.aggregate .min none
  | .max => d.aggregate .max none
  | .sum => d.aggregate .sum none
  | .average => d.aggregate .average (some .double)
  | .take limit => do d.take (← limit.prepare registry scope)
  | .skip offset => do d.skip (← offset.prepare registry scope)
  | .first orDefault => d.singleRow 1 orDefault
  | .single orDefault => d.singleRow 2 orDefault
  | .distinct => d.distinct
  | .other name => throw (.unsupportedOperator name .noCounterpart)

def draftOperators (registry : Registry) (scope : Scope) (d : Draft) :
    List Operator → Supply Draft
  | [] => pure d
  | operator :: rest => do
    d.requireSequence operator.name
    let d ← operator.draft registry scope d
    draftOperators registry scope d rest

/-- A query that is prepared on a draft from the first clause to the last operator. -/
def Model.draftIn (registry : Registry) (scope : Scope) : Model → Supply Sql.Statement
  | ⟨main, clauses, yield, operators⟩ => do
    let (scope, d) ← main.draft registry scope {}
    let (scope, d) ← draftClauses registry scope d clauses
    let d ← yield.draft registry scope d
    let d ← draftOperators registry scope d operators
    d.freeze

end Query

end Comprehension
