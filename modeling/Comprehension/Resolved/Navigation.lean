import Comprehension.Resolved.Exposure
import Comprehension.Schema.Mapping
import Comprehension.Sql.JoinTree

/-!
Members of resolved expressions, and the joins that lead from an entity to a related one.
-/
namespace Comprehension.Sql

def Expr.memberOf (schema : Schema) (member : String) : Expr → Except Error Expr
  | .entity e => schema.member e member
  | .column c => Schema.columnMember c member
  | .entityReference tableAlias _ e => do
    match ← schema.member e member with
    | .column c => return .column (e.exposedColumn tableAlias c)
    | other => throw (.unsupportedExpression other.kind (.exposedMember member tableAlias))
  | .compound members =>
    match members.find? fun n => n.name = some member with
    | some n => .ok n.expression
    | none => .error (.unmapped .member member)
  | .named ⟨_, expression⟩ => expression.memberOf schema member
  | other => .error (.unsupportedExpression other.kind (.memberAccess member))

def Source.row (schema : Schema) (unresolved : String → Violation) : Source → Except Error Expr
  | .table itemType _ tableAlias => do return .entity (← schema.entity itemType tableAlias)
  | .statement tableAlias s => .ok (s.projection.exposed tableAlias)
  | .unresolved itemType => .error (.contract (unresolved itemType))

/-- The source of a link; a link without a mapping is mapped first. -/
def Link.resolve (mapping : Mapping) : Link → Supply JoinTarget
  | .unresolved origin member => mapping.join origin member
  | .resolved source leftKey rightKey => pure ⟨source, leftKey, rightKey⟩

abbrev Joining := StateT (List Table) Supply

/-- Follows a member from an entity of one of the tables. The join is added once and used again
by every other path through the member. -/
def Entity.navigate (mapping : Mapping) (e : Entity) (member : String) : Joining Expr := do
  match Table.focusIn e.tableAlias (← get) with
  | none =>
    throw (.unsupportedExpression .navigation (.navigation member e.tableAlias))
  | some (joins, rebuild) =>
    let (join, joins) := Join.getOrAdd member .left (.unresolved e member) joins
    let target ← join.link.resolve mapping
    set (rebuild (Join.put { join with link := target.link } joins))
    target.source.row mapping.schema .joinedSourceLeftUnresolved

end Comprehension.Sql
