import Comprehension.Command.Basic
import Comprehension.Error
import Comprehension.Method.Pattern
import Comprehension.Sql.Typing

/-!
Commands of resolved statements. Clauses come in a fixed order: `SELECT`, `DISTINCT`, `TOP`, the
projection, `FROM`, `WHERE`, `GROUP BY` and `ORDER BY`.
-/
namespace Comprehension.Command

open Sql

/-- The pieces of a tree, or why it cannot be written. -/
abbrev Rendered := Except Error (List Piece)

/-- How the columns of a row are listed: with the names they are projected under, or without. -/
inductive Listing where
  | projected
  | grouped
deriving DecidableEq

/-- Lists with commas. -/
def commas (items : List (List Piece)) : List Piece :=
  List.intercalate [.text ", "] items

/-- A column of the table with an alias; all of them are written as a bare star. -/
def columnPieces (owner name : String) : List Piece :=
  [.identifier owner, .text ".", if name = "*" then .text "*" else .identifier name]

def literalPiece : Literal → Piece
  | .int n => .text (toString n)
  | .string s => .literal s
  | .null => .text "NULL"

/-- A value: a parameter, unless it is null. -/
def valuePieces (value : Value) : List Piece :=
  if value.isNull then [.text "NULL"] else [.parameter value]

/-- One column of an entity, read under one name and written under another. -/
def entityColumn (tableAlias : String) (readName writtenName : Option String) (c : Column) :
    List Piece :=
  if c.isStar then columnPieces tableAlias "*"
  else
    let source := exposedName readName c.name
    let target := exposedName writtenName c.name
    columnPieces tableAlias source ++
      if target = source then [] else [.text " AS ", .identifier target]

def entityPieces (tableAlias : String) (e : Entity) (readName writtenName : Option String) :
    List Piece :=
  commas (e.columns.map (entityColumn tableAlias readName writtenName))

/-- An entity by its own columns, without names. -/
def groupedEntity (e : Entity) : List Piece :=
  commas (e.columns.map fun c => columnPieces c.owner c.name)

/-- A projection under a name. Entities start the names of their columns with it, and the members
of compounds have names of their own. -/
def namedPieces (name : Option String) (e : Expr) (rendered : Rendered) : Rendered :=
  match e with
  | .entity e => .ok (entityPieces e.tableAlias e none name)
  | .entityReference tableAlias _ e => .ok (entityPieces tableAlias e e.name name)
  | .compound _ => rendered
  | e => do
    return (← rendered) ++ [.text " AS ", .identifier (Named.effectiveName ⟨name, e⟩)]

def operatorPiece : BinaryOp → Piece
  | .equal => .text "="
  | .notEqual => .text "<>"
  | .lessThan => .text "<"
  | .lessThanOrEqual => .text "<="
  | .greaterThan => .text ">"
  | .greaterThanOrEqual => .text ">="
  | .add => .text "+"
  | .subtract => .text "-"
  | .multiply => .text "*"
  | .divide => .text "/"
  | .modulo => .text "%"
  | .concat => .concat

def isNullableColumn : Expr → Bool
  | .column c => c.type.admitsNull
  | _ => false

/-- How a comparison treats nulls. -/
inductive NullRule where
  /-- Two nulls satisfy it. -/
  | bothNull
  /-- A null and a value satisfy it. -/
  | oneNull
  /-- No null satisfies it. -/
  | never
deriving DecidableEq

def nullRule : BinaryOp → NullRule
  | .equal | .lessThanOrEqual | .greaterThanOrEqual => .bothNull
  | .notEqual => .oneNull
  | _ => .never

/-- A binary expression between parentheses. Comparisons with the null constant and of two nullable
columns spell out what a null satisfies. -/
def binaryPieces (op : BinaryOp) (left right : Expr) (l r : Rendered) : Rendered :=
  if op.isComparison && (left.isNullConstant || right.isNullConstant) then
    let subject := if right.isNullConstant then l else r
    match nullRule op with
    | .bothNull => do return [.text "("] ++ (← subject) ++ [.text " IS NULL)"]
    | .oneNull => do return [.text "("] ++ (← subject) ++ [.text " IS NOT NULL)"]
    | .never => .ok [.text "(1 <> 1)"]
  else do
    let l ← l
    let r ← r
    let plain := l ++ [.text " ", operatorPiece op, .text " "] ++ r
    let whenNull : List Piece :=
      if op.isComparison && isNullableColumn left && isNullableColumn right then
        match nullRule op with
        | .bothNull => [.text "("] ++ l ++ [.text " IS NULL AND "] ++ r ++ [.text " IS NULL) OR "]
        | .oneNull =>
          [.text "("] ++ l ++ [.text " IS NULL AND "] ++ r ++ [.text " IS NOT NULL) OR ("] ++
            l ++ [.text " IS NOT NULL AND "] ++ r ++ [.text " IS NULL) OR "]
        | .never => []
      else []
    return [.text "("] ++ whenNull ++ plain ++ [.text ")"]

def logicalText : LogicalOp → String
  | .and => "AND"
  | .or => "OR"

def aggregateText : Aggregate → String
  | .count => "COUNT"
  | .min => "MIN"
  | .max => "MAX"
  | .sum => "SUM"
  | .average => "AVG"

/-- A text with the escape character put before each wildcard, one wildcard after the other. -/
def escapePieces (value : List Piece) : List Piece :=
  Method.Pattern.wildcards.foldl (fun value c =>
    [.text "REPLACE("] ++ value ++
      [.text ",", .literal (String.singleton c), .text ",",
       .literal (String.ofList [Method.Pattern.escapeChar, c]), .text ")"]) value

/-- A condition has to be a predicate, unless booleans are values too. -/
def predicatePieces (native : Bool) (e : Expr) (rendered : Rendered) : Rendered :=
  if e.isPredicate || native then rendered else .error (.unsupportedCriterion e.kind)

/-- An ordering. Constants are not allowed there and are selected first. -/
def orderingPieces (e : Expr) (direction : Query.Direction) (rendered : List Piece) : List Piece :=
  let key := match e with
    | .constant .. | .literal _ => [.text "(SELECT "] ++ rendered ++ [.text ")"]
    | _ => rendered
  key ++ [.text (" " ++ direction.text)]

/-- How a table is attached to the ones before it. -/
def attachment : Source → JoinKind → String
  | .statement .., .left => " OUTER APPLY "
  | .statement .., .inner => " CROSS APPLY "
  | _, _ => " CROSS JOIN "

def joinKeyword : JoinKind → String
  | .inner => " INNER JOIN "
  | .left => " LEFT OUTER JOIN "

/-- A clause after its keyword, if it is there. -/
def clause (keyword : String) : Option (List Piece) → List Piece
  | none => []
  | some pieces => .text keyword :: pieces

/-- Tables one after the other; there may be none. -/
def attached : List (JoinKind × Source × List Piece) → Option (List Piece)
  | [] => none
  | (_, _, first) :: rest =>
    some (first ++ rest.flatMap fun (kind, source, pieces) =>
      .text (attachment source kind) :: pieces)

end Comprehension.Command

namespace Comprehension.Sql

open Command

mutual

def Expr.pieces (native : Bool) (listing : Listing) : Expr → Rendered
  | .column c => .ok (columnPieces c.owner c.name)
  | .constant value _ => .ok (valuePieces value)
  | .literal l => .ok [literalPiece l]
  | .customText text _ => .ok [.text text]
  | .entity e =>
    .ok (if listing = .grouped then groupedEntity e else entityPieces e.tableAlias e none e.name)
  | .entityReference tableAlias name e => .ok (entityPieces tableAlias e e.name name)
  | .entityConstant _ _ primaryKey => primaryKey.pieces native .projected
  | .binary op left right _ =>
    binaryPieces op left right (left.pieces native .projected)
      (right.pieces native .projected)
  | .like expression pattern => do
    let value ← expression.pieces native .projected
    let pattern ← pattern.pieces native .projected
    return value ++ [.text " LIKE "] ++ pattern ++
      [.text " ESCAPE ", .literal (String.singleton Method.Pattern.escapeChar)]
  | .likeEscape value => do return escapePieces (← value.pieces native .projected)
  | .logical op left right => do
    let l ← predicatePieces native left (left.pieces native .projected)
    let r ← predicatePieces native right (right.pieces native .projected)
    return [.text "("] ++ l ++ [.text (" " ++ logicalText op ++ " ")] ++ r ++ [.text ")"]
  | .not operand => do
    let pieces ← predicatePieces native operand (operand.pieces native .projected)
    return [.text "NOT ("] ++ pieces ++ [.text ")"]
  | .case branches otherwise _ => do
    let branches ← branchesPieces native branches
    let otherwise ← optionPieces native .projected otherwise
    return [.text "CASE"] ++ branches ++ clause " ELSE " otherwise ++ [.text " END"]
  | .function name args _ _ => do
    return [.text (name ++ "(")] ++ commas (← argsPieces native args) ++ [.text ")"]
  | .convert target expression _ => do
    return [.text ("CONVERT(" ++ target ++ ", ")] ++
      (← expression.pieces native .projected) ++ [.text ")"]
  | .aggregation function expression _ =>
    if function = .count then .ok [.text "COUNT(*)"]
    else do
      return [.text (aggregateText function ++ "(")] ++
        (← expression.pieces native .projected) ++ [.text ")"]
  | .rowNumber orderings => do
    return [.text "ROW_NUMBER() OVER (ORDER BY "] ++ commas (← orderingsPieces native orderings) ++
      [.text ")"]
  | .named ⟨name, expression⟩ =>
    match listing with
    | .grouped => expression.pieces native .grouped
    | .projected => namedPieces name expression (expression.pieces native .projected)
  | .compound members => do return commas (← membersPieces native listing members)
  | .subStatement statement => do
    return [.text "("] ++ (← statement.pieces native true) ++ [.text ")"]
  | .tableReference .. => .error (.unsupportedExpression .tableReference .notResolved)
  | .member .. => .error (.unsupportedExpression .member .notResolved)
  | .navigation .. => .error (.unsupportedExpression .navigation .notResolved)
  | .call _ => .error (.unsupportedExpression .methodCall .notResolved)

def optionPieces (native : Bool) (listing : Listing) :
    Option Expr → Except Error (Option (List Piece))
  | none => .ok none
  | some e => do return some (← e.pieces native listing)

def argsPieces (native : Bool) : List Expr → Except Error (List (List Piece))
  | [] => .ok []
  | e :: rest => do
    let first ← e.pieces native .projected
    return first :: (← argsPieces native rest)

def branchesPieces (native : Bool) : List (Expr × Expr) → Rendered
  | [] => .ok []
  | (test, value) :: rest => do
    let test ← predicatePieces native test (test.pieces native .projected)
    let value ← value.pieces native .projected
    return [.text " WHEN "] ++ test ++ [.text " THEN "] ++ value ++ (← branchesPieces native rest)

def orderingsPieces (native : Bool) : List Ordering → Except Error (List (List Piece))
  | [] => .ok []
  | ⟨e, direction⟩ :: rest => do
    let first ← e.pieces native .projected
    return orderingPieces e direction first :: (← orderingsPieces native rest)

def membersPieces (native : Bool) (listing : Listing) :
    List Named → Except Error (List (List Piece))
  | [] => .ok []
  | ⟨name, e⟩ :: rest => do
    let first ← match listing with
      | .grouped => e.pieces native .grouped
      | .projected => namedPieces name e (e.pieces native .projected)
    return first :: (← membersPieces native listing rest)

def Source.pieces (native : Bool) : Source → Rendered
  | .table _ tableName tableAlias =>
    .ok [.identifier tableName, .text " AS ", .identifier tableAlias]
  | .statement tableAlias statement => do
    return [.text "("] ++ (← statement.pieces native true) ++
      [.text ") AS ", .identifier tableAlias]
  | .unresolved itemType =>
    .error (.unsupportedExpression .unresolvedSource (.unresolvedSource itemType))

/-- Each join is followed by the joins that hang off it. -/
def joinsPieces (native : Bool) : List Join → Rendered
  | [] => .ok []
  | ⟨member, _, .unresolved _ _, _⟩ :: _ =>
    .error (.unsupportedExpression .unresolvedJoin (.unresolvedJoin member))
  | ⟨_, kind, .resolved source leftKey rightKey, joins⟩ :: rest => do
    let source ← source.pieces native
    let leftKey ← leftKey.pieces native .projected
    let rightKey ← rightKey.pieces native .projected
    let below ← joinsPieces native joins
    return [.text (joinKeyword kind)] ++ source ++ [.text " ON "] ++ leftKey ++ [.text " = "] ++
      rightKey ++ below ++ (← joinsPieces native rest)

/-- Tables one after the other, each with its joins. -/
def tablesPieces (native : Bool) : List Table → Except Error (List (JoinKind × Source × List Piece))
  | [] => .ok []
  | ⟨_, source, kind, joins⟩ :: rest => do
    let first ← source.pieces native
    let joins ← joinsPieces native joins
    return (kind, source, first ++ joins) :: (← tablesPieces native rest)

/-- A statement without parentheses. Inside another one only a limited statement is ordered. -/
def Statement.pieces (native nested : Bool) : Statement → Rendered
  | ⟨projection, tables, condition, grouping, orderings, top, isDistinct, _, _, _⟩ => do
    let limited := top.isSome
    let top ← optionPieces native .projected top
    let projection ← projection.pieces native .projected
    let tables ← tablesPieces native tables
    let condition ← conditionPieces native condition
    let grouping ← optionPieces native .grouped grouping
    let orderings ←
      if nested && !limited then pure [] else orderingsPieces native orderings
    return [.text "SELECT "] ++ (if isDistinct then [.text "DISTINCT "] else []) ++
      (match top with
        | none => []
        | some top => [.text "TOP ("] ++ top ++ [.text ") "]) ++
      projection ++ clause " FROM " (attached tables) ++ clause " WHERE " condition ++
      clause " GROUP BY " grouping ++
      (if orderings.isEmpty then [] else [.text " ORDER BY "] ++ commas orderings)

def conditionPieces (native : Bool) : Option Expr → Except Error (Option (List Piece))
  | none => .ok none
  | some e => do return some (← predicatePieces native e (e.pieces native .projected))

end

namespace Statement

/-- The command of a resolved statement. -/
def command (dialect : Dialect) (native : Bool) (s : Statement) : Except Error Command := do
  return .ofPieces dialect (← s.pieces native false)

end Statement

end Comprehension.Sql
