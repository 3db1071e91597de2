import Comprehension.Resolved.Navigation
import Comprehension.Resolved.Position
import Comprehension.Sql.Draft

/-!
Resolution of statements: first the sources, then the joins, then the expressions, each of which is
adapted to its position. A member is resolved by resolving what it stands for once more, and a
mapping may hand out statements as sources; both go through a `Reentry`, so that each pass runs
over the tree it is given. How many passes can follow each other is known beforehand: what a member
stands for holds fewer members than the access to it.
-/
namespace Comprehension.Sql

/-- What the rows of each table in scope stand for, by the key of the table. Sub-statements see
the tables around them. -/
abbrev Rows := List (Nat × Expr)

structure Resolver where
  mapping : Mapping
  nativeBoolean : Bool

/-- Further passes over trees that come up during a pass. -/
structure Reentry where
  expression : Rows → Position → Expr → Joining Expr
  statement : Rows → Statement → Supply Statement

namespace Resolver

/-- Adapts a resolved expression to its position. -/
def fit (r : Resolver) (position : Position) (resolved : Joining Expr) : Joining Expr := do
  Expr.adapted r.nativeBoolean position (← resolved)

end Resolver

/-- Entities are compared by identity. -/
def identities (op : BinaryOp) (left right : Expr) : Except Error (Expr × Expr) :=
  if (op = .equal ∨ op = .notEqual) ∧ (left.type.isEntity || right.type.isEntity) then do
    return (← left.identity, ← right.identity)
  else .ok (left, right)

mutual

/-- Maps a join that has no mapping yet, and then the joins that hang off it. -/
def Join.resolve (mapping : Mapping) : Join → Supply Join
  | ⟨member, kind, link, joins⟩ => do
    let target ← link.resolve mapping
    return ⟨member, kind, target.link, ← resolveJoins mapping joins⟩

def resolveJoins (mapping : Mapping) : List Join → Supply (List Join)
  | [] => pure []
  | join :: rest => do
    let join ← join.resolve mapping
    return join :: (← resolveJoins mapping rest)

end

def resolveTableJoins (mapping : Mapping) : List Table → Supply (List Table)
  | [] => pure []
  | table :: rest => do
    let joins ← resolveJoins mapping table.joins
    return { table with joins } :: (← resolveTableJoins mapping rest)

mutual

/-- Resolves an expression, but does not adapt it to its position. -/
def Expr.resolve (r : Resolver) (again : Reentry) (rows : Rows) (position : Position) :
    Expr → Joining Expr
  | .column c => pure (.column c)
  | .literal l => pure (.literal l)
  | .customText text type => pure (.customText text type)
  | .entity e => pure (.entity e)
  | .entityReference tableAlias name e => pure (.entityReference tableAlias name e)
  | .entityConstant type value primaryKey => pure (.entityConstant type value primaryKey)
  | .constant value type => r.mapping.schema.constant value type
  | .tableReference key _ =>
    match rows.lookup key with
    | some row => pure row
    | none => throw (.contract (.tableNotInScope key))
  | .member source name _ => do
    let source ← r.fit .value (source.resolve r again rows .value)
    again.expression rows position (← source.memberOf r.mapping.schema name)
  | .navigation e member _ => e.navigate r.mapping member
  | .call c => throw (.unsupportedExpression .methodCall (.written c.text))
  | .binary op left right type => do
    let left ← r.fit .value (left.resolve r again rows .value)
    let right ← r.fit .value (right.resolve r again rows .value)
    let (left, right) ← identities op left right
    let left ← r.fit .singleValue (pure left)
    let right ← r.fit .singleValue (pure right)
    return .binary op left right type
  | .like expression pattern => do
    let expression ← r.fit .singleValue (expression.resolve r again rows .singleValue)
    let pattern ← r.fit .singleValue (pattern.resolve r again rows .singleValue)
    return .like expression pattern
  | .likeEscape value => do
    return .likeEscape (← r.fit .singleValue (value.resolve r again rows .singleValue))
  | .logical op left right => do
    let left ← r.fit .predicate (left.resolve r again rows .predicate)
    let right ← r.fit .predicate (right.resolve r again rows .predicate)
    return .logical op left right
  | .not operand => do
    return .not (← r.fit .predicate (operand.resolve r again rows .predicate))
  | .case branches otherwise type => do
    let branches ← resolveBranches r again rows branches
    let otherwise ← resolveOption r again rows .singleValue otherwise
    return .case branches otherwise type
  | .function name args type isPredicate => do
    return .function name (← resolveArgs r again rows args) type isPredicate
  | .convert target expression type => do
    let expression ← r.fit .singleValue (expression.resolve r again rows .singleValue)
    return .convert target expression type
  | .aggregation function expression type => do
    -- A count of rows does not look at its operand.
    let operand : Position := if function = .count then .value else .singleValue
    return .aggregation function
      (← r.fit operand (expression.resolve r again rows operand)) type
  | .rowNumber orderings => do return .rowNumber (← resolveOrderings r again rows orderings)
  | .named ⟨name, expression⟩ => do
    return .named ⟨name, ← r.fit position (expression.resolve r again rows position)⟩
  | .compound members => do return .compound (← resolveMembers r again rows members)
  | .subStatement statement => do
    return .subStatement (← (statement.resolveIn r again rows : Supply Statement))

def resolveOption (r : Resolver) (again : Reentry) (rows : Rows) (position : Position) :
    Option Expr → Joining (Option Expr)
  | none => pure none
  | some e => do return some (← r.fit position (e.resolve r again rows position))

def resolveArgs (r : Resolver) (again : Reentry) (rows : Rows) : List Expr → Joining (List Expr)
  | [] => pure []
  | e :: rest => do
    let e ← r.fit .singleValue (e.resolve r again rows .singleValue)
    return e :: (← resolveArgs r again rows rest)

def resolveBranches (r : Resolver) (again : Reentry) (rows : Rows) :
    List (Expr × Expr) → Joining (List (Expr × Expr))
  | [] => pure []
  | (test, value) :: rest => do
    let test ← r.fit .predicate (test.resolve r again rows .predicate)
    let value ← r.fit .singleValue (value.resolve r again rows .singleValue)
    return (test, value) :: (← resolveBranches r again rows rest)

def resolveOrderings (r : Resolver) (again : Reentry) (rows : Rows) :
    List Ordering → Joining (List Ordering)
  | [] => pure []
  | ⟨e, direction⟩ :: rest => do
    let e ← r.fit .singleValue (e.resolve r again rows .singleValue)
    return ⟨e, direction⟩ :: (← resolveOrderings r again rows rest)

def resolveMembers (r : Resolver) (again : Reentry) (rows : Rows) :
    List Named → Joining (List Named)
  | [] => pure []
  | ⟨name, e⟩ :: rest => do
    let e ← r.fit .value (e.resolve r again rows .value)
    return ⟨name, e⟩ :: (← resolveMembers r again rows rest)

/-- Maps a source. A statement that the mapping hands out is resolved in turn. -/
def Source.resolve (r : Resolver) (again : Reentry) (rows : Rows) : Source → Supply Source
  | .unresolved itemType => do
    match ← r.mapping.source itemType with
    | .statement tableAlias statement =>
      return .statement tableAlias (← again.statement rows statement)
    | other => return other
  | .table itemType tableName tableAlias => pure (.table itemType tableName tableAlias)
  | .statement tableAlias statement => do
    return .statement tableAlias (← statement.resolveIn r again rows)

/-- Resolves the sources of tables one after the other; each sees the ones before it. -/
def resolveTables (r : Resolver) (again : Reentry) (rows : Rows) :
    List Table → Supply (List Table × Rows)
  | [] => pure ([], rows)
  | ⟨key, source, kind, joins⟩ :: rest => do
    let source ← source.resolve r again rows
    let row ← source.row r.mapping.schema .sourceLeftUnresolved
    let (rest, rows) ← resolveTables r again ((key, row) :: rows) rest
    return (⟨key, source, kind, joins⟩ :: rest, rows)

/-- Resolves a statement among the tables around it. Its shape follows its projection. -/
def Statement.resolveIn (r : Resolver) (again : Reentry) (rows : Rows) :
    Statement → Supply Statement
  | ⟨projection, tables, condition, grouping, orderings, top, isDistinct, rowNumber, rowOffset,
      shape⟩ => do
    let (tables, rows) ← resolveTables r again rows tables
    let tables ← resolveTableJoins r.mapping tables
    let expressions : Joining Statement := do
      let resolved ← r.fit .value (projection.resolve r again rows .value)
      return {
        projection := resolved
        condition := ← resolveOption r again rows .predicate condition
        grouping := ← resolveOption r again rows .value grouping
        orderings := ← resolveOrderings r again rows orderings
        top := ← resolveOption r again rows .singleValue top
        rowNumber := ← resolveOption r again rows .singleValue rowNumber
        rowOffset := ← resolveOption r again rows .singleValue rowOffset
        tables := ← get
        isDistinct
        shape :=
          if resolved.type = projection.type then shape else shape.withRowType resolved.type }
    let (statement, _) ← expressions.run tables
    statement.checked

end

mutual

/-- How many member accesses an expression holds, without the joins of its tables, which no pass
looks into. -/
def Expr.memberCount : Expr → Nat
  | .column _ | .constant .. | .literal _ | .customText .. | .entity _ | .entityReference ..
  | .navigation .. | .tableReference .. | .call _ => 0
  | .entityConstant _ _ e | .likeEscape e | .not e | .convert _ e _ | .aggregation _ e _
  | .named ⟨_, e⟩ => e.memberCount
  | .member source _ _ => source.memberCount + 1
  | .binary _ left right _ | .logical _ left right | .like left right =>
    left.memberCount + right.memberCount
  | .case branches otherwise _ => branchesMemberCount branches + optionMemberCount otherwise
  | .function _ args _ _ => argsMemberCount args
  | .rowNumber orderings => orderingsMemberCount orderings
  | .compound members => membersMemberCount members
  | .subStatement statement => statement.memberCount

def optionMemberCount : Option Expr → Nat
  | none => 0
  | some e => e.memberCount

def argsMemberCount : List Expr → Nat
  | [] => 0
  | e :: rest => e.memberCount + argsMemberCount rest

def branchesMemberCount : List (Expr × Expr) → Nat
  | [] => 0
  | (test, value) :: rest => test.memberCount + value.memberCount + branchesMemberCount rest

def orderingsMemberCount : List Ordering → Nat
  | [] => 0
  | ⟨e, _⟩ :: rest => e.memberCount + orderingsMemberCount rest

def membersMemberCount : List Named → Nat
  | [] => 0
  | ⟨_, e⟩ :: rest => e.memberCount + membersMemberCount rest

def Source.memberCount : Source → Nat
  | .statement _ statement => statement.memberCount
  | .unresolved _ | .table .. => 0

def tablesMemberCount : List Table → Nat
  | [] => 0
  | ⟨_, source, _, _⟩ :: rest => source.memberCount + tablesMemberCount rest

def Statement.memberCount : Statement → Nat
  | ⟨projection, tables, condition, grouping, orderings, top, _, rowNumber, rowOffset, _⟩ =>
    projection.memberCount + tablesMemberCount tables + optionMemberCount condition +
      optionMemberCount grouping + orderingsMemberCount orderings + optionMemberCount top +
      optionMemberCount rowNumber + optionMemberCount rowOffset

end

namespace Reentry

/-- At most `depth` passes inside each other. -/
def upTo (r : Resolver) : Nat → Reentry
  | 0 =>
    { expression := fun _ _ _ => throw (.contract .endlessSource)
      statement := fun _ _ => throw (.contract .endlessSource) }
  | depth + 1 =>
    { expression := fun rows position e => e.resolve r (upTo r depth) rows position
      statement := fun rows s => s.resolveIn r (upTo r depth) rows }

end Reentry

/-- The passes that sources of a mapping can cause: one each, and those of their members. -/
def sourcePasses (mapping : Mapping) : Nat :=
  mapping.sources.foldl (fun passes (_, source) => passes + (source.memberCount + 1)) 0

namespace Statement

/-- Resolves a statement against a mapping. -/
def resolve (mapping : Mapping) (nativeBoolean : Bool) (s : Statement) : Supply Statement :=
  let r : Resolver := ⟨mapping, nativeBoolean⟩
  s.resolveIn r (.upTo r (s.memberCount + sourcePasses mapping)) []

end Statement

end Comprehension.Sql
