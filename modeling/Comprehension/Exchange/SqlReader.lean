import Comprehension.Exchange.SqlWriter
import Comprehension.Schema.Mapping
import Comprehension.Sql.JoinTree

/-!
Reading statement trees out of documents. Statements are checked as they are read, those inside
others first.
-/
namespace Comprehension

open Document (Reading Form ifGiven listIfGiven each asText asBool choice accepted)

namespace Method.Signature

def ofDocument (d : Document) : Reading Signature := do
  let [some declaringType, some name, parameters] ←
    d.members ["declaring_type", "name", "parameter_types"] | throw .malformed
  return ⟨← declaringType.asText, ← name.asText, ← ifGiven (each asText) parameters⟩

end Method.Signature

namespace Sql

/-- Values under the words they are written as. -/
def wordTable {α : Type} (word : α → String) (values : List α) : List (String × α) :=
  values.map fun a => (word a, a)

def BinaryOp.ofDocument (d : Document) : Reading BinaryOp := do
  choice (wordTable BinaryOp.word
    [.equal, .notEqual, .lessThan, .lessThanOrEqual, .greaterThan, .greaterThanOrEqual, .add,
     .subtract, .multiply, .divide, .modulo, .concat]) (← d.asText)

def LogicalOp.ofDocument (d : Document) : Reading LogicalOp := do
  choice (wordTable LogicalOp.word [.and, .or]) (← d.asText)

def Aggregate.ofDocument (d : Document) : Reading Aggregate := do
  choice (wordTable Aggregate.word [.count, .min, .max, .sum, .average]) (← d.asText)

def JoinKind.ofDocument (d : Document) : Reading JoinKind := do
  choice (wordTable JoinKind.word [.inner, .left]) (← d.asText)

def readType (d : Document) : Reading ValueType := ValueType.ofDocument .json d

def Column.ofDocument (d : Document) : Reading Column := do
  let [some type, some owner, some name, some isPrimaryKey] ←
    d.members ["ty", "owning_alias", "name", "is_primary_key"] | throw .malformed
  return ⟨← readType type, ← owner.asText, ← name.asText, ← isPrimaryKey.asBool⟩

def Entity.ofDocument (d : Document) : Reading Entity := do
  let [some itemType, some tableAlias, name, some primaryKey, columns] ←
    d.members ["item_type", "table_alias", "name", "primary_key", "columns"] | throw .malformed
  return ⟨← itemType.asText, ← tableAlias.asText, ← ifGiven asText name,
    ← Column.ofDocument primaryKey, ← listIfGiven Column.ofDocument columns⟩

def Literal.ofDocument (d : Document) : Reading Literal := do
  match ← d.variant with
  | ("Int", some n) => return int (← n.asInt 64)
  | ("String", some s) => return string (← s.asText)
  | (tag, content) =>
    if tag = "Null" && Form.json.isBare content then return null else throw .malformed

def Shape.ofDocument (d : Document) : Reading Shape := do
  match ← d.variant with
  | ("Sequence", some d) =>
    let [some itemType] ← d.members ["item_type"] | throw .malformed
    return sequence (← readType itemType)
  | ("SingleValue", some d) =>
    let [some type, some orDefault] ← d.members ["ty", "return_default_when_empty"]
      | throw .malformed
    return singleValue (← readType type) (← orDefault.asBool)
  | ("Scalar", some d) =>
    let [some type] ← d.members ["ty"] | throw .malformed
    return scalar (← readType type)
  | _ => throw .malformed

mutual

def Expr.ofDocumentWithin : Nat → Document → Reading Expr
  | 0, _ => .error .malformed
  | fuel + 1, d => do
    match ← d.variant with
    | ("Column", some d) => return .column (← Column.ofDocument d)
    | ("Constant", some d) =>
      let [some value, some type] ← d.members ["value", "ty"] | throw .malformed
      return .constant (← Value.ofDocument value) (← readType type)
    | ("Literal", some d) => return .literal (← Literal.ofDocument d)
    | ("CustomText", some d) =>
      let [some text, some type] ← d.members ["text", "ty"] | throw .malformed
      return .customText (← text.asText) (← readType type)
    | ("Entity", some d) => return .entity (← Entity.ofDocument d)
    | ("EntityReference", some d) =>
      let [some tableAlias, name, some entity] ← d.members ["table_alias", "name", "entity"]
        | throw .malformed
      return .entityReference (← tableAlias.asText) (← ifGiven asText name)
        (← Entity.ofDocument entity)
    | ("EntityConstant", some d) =>
      let [some type, some value, some primaryKey] ← d.members ["ty", "value", "primary_key"]
        | throw .malformed
      return .entityConstant (← readType type) (← Value.ofDocument value)
        (← Expr.ofDocumentWithin fuel primaryKey)
    | ("EntityRefMember", some d) =>
      let [some entity, some member, some type] ← d.members ["entity", "member", "ty"]
        | throw .malformed
      return .navigation (← Entity.ofDocument entity) (← member.asText) (← readType type)
    | ("Binary", some d) =>
      let [some op, some left, some right, some type] ← d.members ["op", "left", "right", "ty"]
        | throw .malformed
      return .binary (← BinaryOp.ofDocument op) (← Expr.ofDocumentWithin fuel left)
        (← Expr.ofDocumentWithin fuel right) (← readType type)
    | ("Like", some d) =>
      let [some expression, some pattern] ← d.members ["expression", "pattern"] | throw .malformed
      return .like (← Expr.ofDocumentWithin fuel expression) (← Expr.ofDocumentWithin fuel pattern)
    | ("LikeEscape", some value) => return .likeEscape (← Expr.ofDocumentWithin fuel value)
    | ("Logical", some d) =>
      let [some op, some left, some right] ← d.members ["op", "left", "right"] | throw .malformed
      return .logical (← LogicalOp.ofDocument op) (← Expr.ofDocumentWithin fuel left)
        (← Expr.ofDocumentWithin fuel right)
    | ("Not", some operand) => return .not (← Expr.ofDocumentWithin fuel operand)
    | ("Case", some d) =>
      let [branches, otherwise, some type] ← d.members ["cases", "else_value", "ty"]
        | throw .malformed
      return .case (← listIfGiven (branchOfDocumentWithin fuel) branches)
        (← ifGiven (Expr.ofDocumentWithin fuel) otherwise) (← readType type)
    | ("Function", some d) =>
      let [some name, args, some type, some isPredicate] ←
        d.members ["name", "args", "ty", "is_predicate"] | throw .malformed
      return .function (← name.asText) (← listIfGiven (Expr.ofDocumentWithin fuel) args)
        (← readType type) (← isPredicate.asBool)
    | ("Convert", some d) =>
      let [some target, some expression, some type] ← d.members ["target", "expression", "ty"]
        | throw .malformed
      return .convert (← target.asText) (← Expr.ofDocumentWithin fuel expression) (← readType type)
    | ("Aggregation", some d) =>
      let [some function, some expression, some type] ← d.members ["function", "expression", "ty"]
        | throw .malformed
      return .aggregation (← Aggregate.ofDocument function)
        (← Expr.ofDocumentWithin fuel expression) (← readType type)
    | ("RowNumber", some d) =>
      let [orderings] ← d.members ["orderings"] | throw .malformed
      return .rowNumber (← listIfGiven (Ordering.ofDocumentWithin fuel) orderings)
    | ("Named", some d) => return .named (← Named.ofDocumentWithin fuel d)
    | ("Compound", some d) =>
      let [members] ← d.members ["members"] | throw .malformed
      return .compound (← listIfGiven (Named.ofDocumentWithin fuel) members)
    | ("SubStatement", some d) =>
      return .subStatement (← accepted (← Draft.ofDocumentWithin fuel d).freeze)
    | ("TableReference", some d) =>
      let [some key, some type] ← d.members ["key", "ty"] | throw .malformed
      return .tableReference (← key.asNat) (← readType type)
    | ("Member", some d) =>
      let [some source, some member, some type] ← d.members ["source", "member", "ty"]
        | throw .malformed
      return .member (← Expr.ofDocumentWithin fuel source) (← member.asText) (← readType type)
    | ("MethodCall", some d) => return .call (← Call.ofDocumentWithin fuel d)
    | _ => throw .malformed

/-- A test and a value. -/
def branchOfDocumentWithin : Nat → Document → Reading (Expr × Expr)
  | 0, _ => .error .malformed
  | fuel + 1, d => do
    let [test, value] ← d.asList | throw .malformed
    return (← Expr.ofDocumentWithin fuel test, ← Expr.ofDocumentWithin fuel value)

def Named.ofDocumentWithin : Nat → Document → Reading Named
  | 0, _ => .error .malformed
  | fuel + 1, d => do
    let [name, some expression] ← d.members ["name", "expression"] | throw .malformed
    return ⟨← ifGiven asText name, ← Expr.ofDocumentWithin fuel expression⟩

def Ordering.ofDocumentWithin : Nat → Document → Reading Ordering
  | 0, _ => .error .malformed
  | fuel + 1, d => do
    let [some expression, some direction] ← d.members ["expression", "direction"]
      | throw .malformed
    return ⟨← Expr.ofDocumentWithin fuel expression, ← Query.Direction.ofDocument direction⟩

def Call.ofDocumentWithin : Nat → Document → Reading Call
  | 0, _ => .error .malformed
  | fuel + 1, d => do
    let [some signature, object, arguments, some type, some text] ←
      d.members ["signature", "object", "arguments", "ty", "source_text"] | throw .malformed
    return ⟨← Method.Signature.ofDocument signature,
      ← ifGiven (Expr.ofDocumentWithin fuel) object,
      ← listIfGiven (Expr.ofDocumentWithin fuel) arguments, ← readType type, ← text.asText⟩

def Source.ofDocumentWithin : Nat → Document → Reading Source
  | 0, _ => .error .malformed
  | fuel + 1, d => do
    match ← d.variant with
    | ("Unresolved", some d) =>
      let [some itemType] ← d.members ["item_type"] | throw .malformed
      return .unresolved (← itemType.asText)
    | ("ResolvedSimple", some d) =>
      let [some itemType, some tableName, some tableAlias] ←
        d.members ["item_type", "table_name", "alias"] | throw .malformed
      return .table (← itemType.asText) (← tableName.asText) (← tableAlias.asText)
    | ("ResolvedSubStatement", some d) =>
      let [some tableAlias, some statement] ← d.members ["alias", "statement"] | throw .malformed
      return .statement (← tableAlias.asText)
        (← accepted (← Draft.ofDocumentWithin fuel statement).freeze)
    | _ => throw .malformed

def targetOfDocumentWithin : Nat → Document → Reading JoinTarget
  | 0, _ => .error .malformed
  | fuel + 1, d => do
    let [some source, some leftKey, some rightKey] ←
      d.members ["foreign_table_info", "left_key", "right_key"] | throw .malformed
    return ⟨← Source.ofDocumentWithin fuel source, ← Expr.ofDocumentWithin fuel leftKey,
      ← Expr.ofDocumentWithin fuel rightKey⟩

def Link.ofDocumentWithin : Nat → Document → Reading Link
  | 0, _ => .error .malformed
  | fuel + 1, d => do
    match ← d.variant with
    | ("Unresolved", some d) =>
      let [some origin, some member] ← d.members ["originating_entity", "member"]
        | throw .malformed
      return .unresolved (← Entity.ofDocument origin) (← member.asText)
    | ("Resolved", some d) => return (← targetOfDocumentWithin fuel d).link
    | _ => throw .malformed

/-- Adds a join to those before it. A second join through one member adds its own joins only. -/
def addJoinWithin : Nat → List Join → Document → Reading (List Join)
  | 0, _, _ => .error .malformed
  | fuel + 1, joins, d => do
    let [some member, some kind, some link, below] ←
      d.members ["member", "semantics", "info", "joins"] | throw .malformed
    let (join, joins) := Join.getOrAdd (← member.asText) (← JoinKind.ofDocument kind)
      (← Link.ofDocumentWithin fuel link) joins
    let below ← (← listIfGiven pure below).foldlM (addJoinWithin fuel) join.joins
    return Join.put { join with joins := below } joins

def Table.ofDocumentWithin : Nat → Document → Reading Table
  | 0, _ => .error .malformed
  | fuel + 1, d => do
    let [some key, some source, some kind, joins] ←
      d.members ["key", "table_info", "semantics", "joins"] | throw .malformed
    return ⟨← key.asNat, ← Source.ofDocumentWithin fuel source, ← JoinKind.ofDocument kind,
      ← (← listIfGiven pure joins).foldlM (addJoinWithin fuel) []⟩

/-- Reads a statement that need not be complete. -/
def Draft.ofDocumentWithin : Nat → Document → Reading Draft
  | 0, _ => .error .malformed
  | fuel + 1, d => do
    let [projection, tables, condition, grouping, orderings, top, isDistinct, rowNumber, rowOffset,
        shape] ←
      d.members ["select_projection", "sql_tables", "where_condition", "group_by_expression",
        "orderings", "top_expression", "is_distinct", "row_number_selector",
        "current_row_number_offset", "data_info"]
      | throw .malformed
    return {
      projection := ← ifGiven (Expr.ofDocumentWithin fuel) projection
      tables := ← listIfGiven (Table.ofDocumentWithin fuel) tables
      condition := ← ifGiven (Expr.ofDocumentWithin fuel) condition
      grouping := ← ifGiven (Expr.ofDocumentWithin fuel) grouping
      orderings := ← listIfGiven (Ordering.ofDocumentWithin fuel) orderings
      top := ← ifGiven (Expr.ofDocumentWithin fuel) top
      isDistinct := (← ifGiven asBool isDistinct).getD false
      rowNumber := ← ifGiven (Expr.ofDocumentWithin fuel) rowNumber
      rowOffset := ← ifGiven (Expr.ofDocumentWithin fuel) rowOffset
      shape := ← ifGiven Shape.ofDocument shape }

end

/-- Enough steps to read a document: each goes at least one level down. -/
def readingSteps (d : Document) : Nat := d.depth + 1

def Expr.ofDocument (d : Document) : Reading Expr := Expr.ofDocumentWithin (readingSteps d) d

def Call.ofDocument (d : Document) : Reading Call := Call.ofDocumentWithin (readingSteps d) d

def Source.ofDocument (d : Document) : Reading Source := Source.ofDocumentWithin (readingSteps d) d

def Link.ofDocument (d : Document) : Reading Link := Link.ofDocumentWithin (readingSteps d) d

def Table.ofDocument (d : Document) : Reading Table := Table.ofDocumentWithin (readingSteps d) d

def Draft.ofDocument (d : Document) : Reading Draft := Draft.ofDocumentWithin (readingSteps d) d

def Statement.ofDocument (d : Document) : Reading Statement := do
  accepted (← Draft.ofDocument d).freeze

end Sql

namespace JoinTarget

def ofDocument (d : Document) : Reading JoinTarget :=
  Sql.targetOfDocumentWithin (Sql.readingSteps d) d

def document (t : JoinTarget) : Document :=
  .record
    [("foreign_table_info", t.source.document), ("left_key", t.leftKey.document),
     ("right_key", t.rightKey.document)]

end JoinTarget

end Comprehension
