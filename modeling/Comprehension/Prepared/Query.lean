import Comprehension.Method.Registry
import Comprehension.Prepared.Operators
import Comprehension.Query.Printer

/-!
From a query tree to a statement tree. Clauses are taken in the order in which they are written,
then the selection or grouping, then the result operators. Tables and members are not mapped yet.
-/
namespace Comprehension.Query

open Method (Registry Signature)
open Supply (freshAlias freshKey)

/-- What the names of items and lets stand for, the innermost first. -/
abbrev Scope := List (String × Sql.Expr)

/-- The clauses of a statement before its projection. -/
structure Body where
  tables : List Sql.Table := []
  condition : Option Sql.Expr := none
  orderings : List Sql.Ordering := []

/-- The statement of the clauses with a projection and an optional grouping. -/
def Body.statement (body : Body) (projection : Sql.Expr) (grouping : Option Sql.Expr) :
    Sql.Statement :=
  { projection
    tables := body.tables
    condition := body.condition
    grouping
    orderings := body.orderings
    top := none
    isDistinct := false
    rowNumber := none
    rowOffset := none
    shape := .sequence projection.type }

/-- Comparisons and connectives become boolean, additions that involve a text concatenations. -/
def BinaryOp.prepared (op : BinaryOp) (left right : Sql.Expr) (type : ValueType) : Sql.Expr :=
  match op with
  | andAlso => .logical .and left right
  | orElse => .logical .or left right
  | coalesce => .valueFunction "COALESCE" [left, right] type
  | equal => .binaryOf .equal left right
  | notEqual => .binaryOf .notEqual left right
  | lessThan => .binaryOf .lessThan left right
  | lessThanOrEqual => .binaryOf .lessThanOrEqual left right
  | greaterThan => .binaryOf .greaterThan left right
  | greaterThanOrEqual => .binaryOf .greaterThanOrEqual left right
  | add =>
    if left.type.isString || right.type.isString then .concat left right
    else .binary .add left right type
  | subtract => .binary .subtract left right type
  | multiply => .binary .multiply left right type
  | divide => .binary .divide left right type
  | modulo => .binary .modulo left right type

/-- A member of a mapped value is left to the mapping; a property of a scalar is a method. -/
def mappedMember (registry : Registry) (source : Sql.Expr) (name : String) (type : ValueType)
    (text : String) : Except Error Sql.Expr :=
  match source.type.underlying with
  | .entity _ | .object | .sequence _ => .ok (.member source name type)
  | scalar =>
    registry.transform
      { signature := .property scalar.name name, object := some source, arguments := [], type, text }

/-- The two members of a nullable value are its value and whether it has one. -/
def preparedMember (registry : Registry) (source : Sql.Expr) (name : String) (type : ValueType)
    (text : String) : Except Error Sql.Expr :=
  match source.type with
  | .nullable _ =>
    if name = "Value" then .ok source
    else if name = "HasValue" then
      .ok (.binaryOf .notEqual source (.constant .null source.type))
    else mappedMember registry source name type text
  | _ => mappedMember registry source name type text

mutual

def Expr.prepare (registry : Registry) (scope : Scope) : Expr → Supply Sql.Expr
  | .constant value type => pure (.constant value type)
  | .item name _ =>
    match scope.lookup name with
    | some expression => pure expression
    | none => throw (.contract (.itemNotInScope name))
  | .member source name type => do
    let prepared ← source.prepare registry scope
    preparedMember registry prepared name type (Expr.member source name type).text
  | .binary op left right type => do
    let left ← left.prepare registry scope
    let right ← right.prepare registry scope
    return op.prepared left right type
  | .not operand => do return .not (← operand.prepare registry scope)
  | .conditional test ifTrue ifFalse type => do
    let test ← test.prepare registry scope
    let ifTrue ← ifTrue.prepare registry scope
    let ifFalse ← ifFalse.prepare registry scope
    return .case [(test, ifTrue)] (some ifFalse) type
  | .call object declaringType method parameterTypes arguments type => do
    let preparedObject ← prepareObject registry scope object
    let preparedArguments ← prepareArguments registry scope arguments
    registry.transform
      { signature := .ofCall declaringType method parameterTypes
        object := preparedObject
        arguments := preparedArguments
        type
        text := (Expr.call object declaringType method parameterTypes arguments type).text }
  | .record members => do return .compound (← prepareMembers registry scope members)
  | .subQuery model => do return .subStatement (← model.prepareIn registry scope)
  | .queryable itemType =>
    throw (.unsupportedExpression .queryable (.written (Expr.queryable itemType).text))

def prepareObject (registry : Registry) (scope : Scope) : Option Expr → Supply (Option Sql.Expr)
  | none => pure none
  | some object => do return some (← object.prepare registry scope)

def prepareArguments (registry : Registry) (scope : Scope) : List Expr → Supply (List Sql.Expr)
  | [] => pure []
  | argument :: rest => do
    let argument ← argument.prepare registry scope
    return argument :: (← prepareArguments registry scope rest)

def prepareMembers (registry : Registry) (scope : Scope) :
    List (String × Expr) → Supply (List Sql.Named)
  | [] => pure []
  | (name, member) :: rest => do
    let member ← member.prepare registry scope
    return ⟨some name, member⟩ :: (← prepareMembers registry scope rest)

def prepareOrderings (registry : Registry) (scope : Scope) :
    List Ordering → Supply (List Sql.Ordering)
  | [] => pure []
  | ⟨expression, direction⟩ :: rest => do
    let expression ← expression.prepare registry scope
    return ⟨expression, direction⟩ :: (← prepareOrderings registry scope rest)

/-- The rows of a source: a table, or a query under an alias of its own. -/
def prepareRows (registry : Registry) (scope : Scope) (itemName : String) :
    Expr → Supply Sql.Source
  | .queryable itemType => pure (.unresolved itemType)
  | .subQuery model => do
    let statement ← model.prepareIn registry scope
    return .statement (← freshAlias "q") statement.asSource
  | other => throw (.unsupportedClause (.source itemName other.text))

/-- Adds a table, and its item to the scope. -/
def Source.prepare (registry : Registry) (scope : Scope) (body : Body) :
    Source → Supply (Scope × Body)
  | ⟨itemName, _, source⟩ => do
    let key ← freshKey
    let rows ← prepareRows registry scope itemName source
    return (
      (itemName, .tableReference key rows.rowType) :: scope,
      { body with tables := body.tables ++ [.ofSource key rows .inner] })

def Clause.prepare (registry : Registry) (scope : Scope) (body : Body) :
    Clause → Supply (Scope × Body)
  | .source source => source.prepare registry scope body
  | .filter predicate => do
    let condition ← predicate.prepare registry scope
    return (scope, { body with condition := some (Sql.conjoined body.condition condition) })
  | .orderBy orderings => do
    let prepared ← prepareOrderings registry scope orderings
    return (scope, { body with orderings := prepared ++ body.orderings })
  | .bind name expression => do
    let prepared ← expression.prepare registry scope
    return ((name, prepared) :: scope, body)
  | .keyJoin itemName _ _ _ _ => throw (.unsupportedClause (.keyJoin itemName))
  | .groupJoin itemName _ => throw (.unsupportedClause (.groupJoin itemName))

def prepareClauses (registry : Registry) (scope : Scope) (body : Body) :
    List Clause → Supply (Scope × Body)
  | [] => pure (scope, body)
  | clause :: rest => do
    let (scope, body) ← clause.prepare registry scope body
    prepareClauses registry scope body rest

/-- The statement of the clauses and the selection or grouping. A group is selected by its key. -/
def Yield.prepare (registry : Registry) (scope : Scope) (body : Body) : Yield → Supply Sql.Statement
  | .select selector => do
    let projection ← selector.prepare registry scope
    return body.statement projection none
  | .group key _ => do
    let projection ← key.prepare registry scope
    return body.statement projection (some projection)

def Operator.prepare (registry : Registry) (scope : Scope) (statement : Sql.Statement) :
    Operator → Supply Sql.Statement
  | .count => statement.aggregate .count (some .int32)
  | .longCount => statement.aggregate .count (some .int64)
  | .min => statement.aggregate .min none
  | .max => statement.aggregate .max none
  | .sum => statement.aggregate .sum none
  | .average => statement.aggregate .average (some .double)
  | .take count => do statement.take (← count.prepare registry scope)
  | .skip offset => do statement.skip (← offset.prepare registry scope)
  | .first orDefault => statement.singleRow 1 orDefault
  | .single orDefault => statement.singleRow 2 orDefault
  | .distinct => statement.distinct
  | .other name => throw (.unsupportedOperator name .noCounterpart)

def prepareOperators (registry : Registry) (scope : Scope) (statement : Sql.Statement) :
    List Operator → Supply Sql.Statement
  | [] => pure statement
  | operator :: rest => do
    statement.requireSequence operator.name
    let statement ← operator.prepare registry scope statement
    prepareOperators registry scope statement rest

/-- A query inside another one sees the names of the outer one. -/
def Model.prepareIn (registry : Registry) (scope : Scope) : Model → Supply Sql.Statement
  | ⟨main, clauses, yield, operators⟩ => do
    let (scope, body) ← main.prepare registry scope ⟨[], none, []⟩
    let (scope, body) ← prepareClauses registry scope body clauses
    let statement ← yield.prepare registry scope body
    let statement ← prepareOperators registry scope statement operators
    statement.checked

end

/-- Prepares a query on its own. -/
def Model.prepare (registry : Registry) (model : Model) : Supply Sql.Statement :=
  model.prepareIn registry []

end Comprehension.Query
