import Comprehension.Exchange.Value
import Comprehension.Sql.Draft

/-!
Statement trees as documents. Every part is written, an absent one as null.
-/
namespace Comprehension

open Document (tagged)

namespace Method.Signature

def document (s : Signature) : Document :=
  .record
    [("declaring_type", .text s.declaringType), ("name", .text s.name),
     ("parameter_types", match s.parameters with
        | some types => .list (types.map .text)
        | none => .null)]

end Method.Signature

namespace Sql

def BinaryOp.word : BinaryOp → String
  | equal => "Equal"
  | notEqual => "NotEqual"
  | lessThan => "LessThan"
  | lessThanOrEqual => "LessThanOrEqual"
  | greaterThan => "GreaterThan"
  | greaterThanOrEqual => "GreaterThanOrEqual"
  | add => "Add"
  | subtract => "Subtract"
  | multiply => "Multiply"
  | divide => "Divide"
  | modulo => "Modulo"
  | concat => "Concat"

def LogicalOp.word : LogicalOp → String
  | and => "And"
  | or => "Or"

def Aggregate.word : Aggregate → String
  | count => "Count"
  | min => "Min"
  | max => "Max"
  | sum => "Sum"
  | average => "Average"

def JoinKind.word : JoinKind → String
  | inner => "Inner"
  | left => "Left"

def Column.document (c : Column) : Document :=
  .record
    [("ty", c.type.document), ("owning_alias", .text c.owner), ("name", .text c.name),
     ("is_primary_key", .bool c.isPrimaryKey)]

def Entity.document (e : Entity) : Document :=
  .record
    [("item_type", .text e.itemType), ("table_alias", .text e.tableAlias), ("name", .ofText? e.name),
     ("primary_key", e.primaryKey.document), ("columns", .list (e.columns.map Column.document))]

def Literal.document : Literal → Document
  | int n => tagged "Int" (.int n)
  | string s => tagged "String" (.text s)
  | null => .text "Null"

def Shape.document : Shape → Document
  | sequence itemType => tagged "Sequence" (.record [("item_type", itemType.document)])
  | singleValue type orDefault =>
    tagged "SingleValue"
      (.record [("ty", type.document), ("return_default_when_empty", .bool orDefault)])
  | scalar type => tagged "Scalar" (.record [("ty", type.document)])

mutual

def Expr.document : Expr → Document
  | .column c => tagged "Column" c.document
  | .constant value type =>
    tagged "Constant" (.record [("value", value.document), ("ty", type.document)])
  | .literal l => tagged "Literal" l.document
  | .customText text type =>
    tagged "CustomText" (.record [("text", .text text), ("ty", type.document)])
  | .entity e => tagged "Entity" e.document
  | .entityReference tableAlias name e =>
    tagged "EntityReference" (.record
      [("table_alias", .text tableAlias), ("name", .ofText? name), ("entity", e.document)])
  | .entityConstant type value primaryKey =>
    tagged "EntityConstant" (.record
      [("ty", type.document), ("value", value.document), ("primary_key", primaryKey.document)])
  | .navigation e member type =>
    tagged "EntityRefMember" (.record
      [("entity", e.document), ("member", .text member), ("ty", type.document)])
  | .binary op left right type =>
    tagged "Binary" (.record
      [("op", .text op.word), ("left", left.document), ("right", right.document),
       ("ty", type.document)])
  | .like expression pattern =>
    tagged "Like" (.record [("expression", expression.document), ("pattern", pattern.document)])
  | .likeEscape value => tagged "LikeEscape" value.document
  | .logical op left right =>
    tagged "Logical" (.record
      [("op", .text op.word), ("left", left.document), ("right", right.document)])
  | .not operand => tagged "Not" operand.document
  | .case branches otherwise type =>
    tagged "Case" (.record
      [("cases", .list (branchDocuments branches)), ("else_value", optionDocument otherwise),
       ("ty", type.document)])
  | .function name args type isPredicate =>
    tagged "Function" (.record
      [("name", .text name), ("args", .list (exprDocuments args)), ("ty", type.document),
       ("is_predicate", .bool isPredicate)])
  | .convert target expression type =>
    tagged "Convert" (.record
      [("target", .text target), ("expression", expression.document), ("ty", type.document)])
  | .aggregation function expression type =>
    tagged "Aggregation" (.record
      [("function", .text function.word), ("expression", expression.document),
       ("ty", type.document)])
  | .rowNumber orderings =>
    tagged "RowNumber" (.record [("orderings", .list (orderingDocuments orderings))])
  | .named n => tagged "Named" n.document
  | .compound members =>
    tagged "Compound" (.record [("members", .list (namedDocuments members))])
  | .subStatement s => tagged "SubStatement" s.document
  | .tableReference key type =>
    tagged "TableReference" (.record [("key", .int key), ("ty", type.document)])
  | .member source name type =>
    tagged "Member" (.record
      [("source", source.document), ("member", .text name), ("ty", type.document)])
  | .call c => tagged "MethodCall" c.document

def optionDocument : Option Expr → Document
  | none => .null
  | some e => e.document

def exprDocuments : List Expr → List Document
  | [] => []
  | e :: rest => e.document :: exprDocuments rest

def branchDocuments : List (Expr × Expr) → List Document
  | [] => []
  | (test, value) :: rest => .list [test.document, value.document] :: branchDocuments rest

def Named.document : Named → Document
  | ⟨name, expression⟩ => .record [("name", .ofText? name), ("expression", expression.document)]

def namedDocuments : List Named → List Document
  | [] => []
  | n :: rest => n.document :: namedDocuments rest

def Ordering.document : Ordering → Document
  | ⟨expression, direction⟩ =>
    .record [("expression", expression.document), ("direction", direction.document)]

def orderingDocuments : List Ordering → List Document
  | [] => []
  | o :: rest => o.document :: orderingDocuments rest

def Call.document : Call → Document
  | ⟨signature, object, arguments, type, text⟩ =>
    .record
      [("signature", signature.document), ("object", optionDocument object),
       ("arguments", .list (exprDocuments arguments)), ("ty", type.document),
       ("source_text", .text text)]

def Source.document : Source → Document
  | .unresolved itemType => tagged "Unresolved" (.record [("item_type", .text itemType)])
  | .table itemType tableName tableAlias =>
    tagged "ResolvedSimple" (.record
      [("item_type", .text itemType), ("table_name", .text tableName), ("alias", .text tableAlias)])
  | .statement tableAlias s =>
    tagged "ResolvedSubStatement" (.record
      [("alias", .text tableAlias), ("statement", s.document)])

def Link.document : Link → Document
  | .unresolved origin member =>
    tagged "Unresolved" (.record
      [("originating_entity", origin.document), ("member", .text member)])
  | .resolved source leftKey rightKey =>
    tagged "Resolved" (.record
      [("foreign_table_info", source.document), ("left_key", leftKey.document),
       ("right_key", rightKey.document)])

def joinDocuments : List Join → List Document
  | [] => []
  | ⟨member, kind, link, joins⟩ :: rest =>
    .record
      [("member", .text member), ("semantics", .text kind.word), ("info", link.document),
       ("joins", .list (joinDocuments joins))] :: joinDocuments rest

def Table.document : Table → Document
  | ⟨key, source, kind, joins⟩ =>
    .record
      [("key", .int key), ("table_info", source.document), ("semantics", .text kind.word),
       ("joins", .list (joinDocuments joins))]

def tableDocuments : List Table → List Document
  | [] => []
  | t :: rest => t.document :: tableDocuments rest

def Statement.document : Statement → Document
  | ⟨projection, tables, condition, grouping, orderings, top, isDistinct, rowNumber, rowOffset,
      shape⟩ =>
    .record
      [("select_projection", projection.document), ("sql_tables", .list (tableDocuments tables)),
       ("where_condition", optionDocument condition),
       ("group_by_expression", optionDocument grouping),
       ("orderings", .list (orderingDocuments orderings)), ("top_expression", optionDocument top),
       ("is_distinct", .bool isDistinct), ("row_number_selector", optionDocument rowNumber),
       ("current_row_number_offset", optionDocument rowOffset), ("data_info", shape.document)]

end

def Draft.document (d : Draft) : Document :=
  .record
    [("select_projection", optionDocument d.projection),
     ("sql_tables", .list (tableDocuments d.tables)),
     ("where_condition", optionDocument d.condition),
     ("group_by_expression", optionDocument d.grouping),
     ("orderings", .list (orderingDocuments d.orderings)), ("top_expression", optionDocument d.top),
     ("is_distinct", .bool d.isDistinct), ("row_number_selector", optionDocument d.rowNumber),
     ("current_row_number_offset", optionDocument d.rowOffset),
     ("data_info", match d.shape with
        | some shape => shape.document
        | none => .null)]

end Sql

end Comprehension
