import Comprehension.Error
import Comprehension.Sql.Typing

/-!
What the rows of a sub-statement look like from outside. Named values become columns of the
sub-statement's alias, and entities references whose columns are addressed through it.
-/
namespace Comprehension.Sql

/-- A named value, or an entity under a name, seen through an alias. -/
def Named.exposed (tableAlias : String) (n : Named) : Expr :=
  match n.expression with
  | .entity e | .entityReference _ _ e =>
    .entityReference tableAlias n.name { e with name := n.name }
  | other => .column ⟨other.type, tableAlias, n.effectiveName, false⟩

def Expr.exposed (tableAlias : String) : Expr → Expr
  | .named n => n.exposed tableAlias
  | .compound members => .compound (members.map fun n => ⟨n.name, n.exposed tableAlias⟩)
  | .entity e => .entityReference tableAlias e.name e
  | .entityReference _ name e => .entityReference tableAlias name { e with name }
  | .column c => .column ⟨c.type, tableAlias, c.name, c.isPrimaryKey⟩
  | other => .column ⟨other.type, tableAlias, Named.defaultName, false⟩

def Entity.exposedColumn (e : Entity) (tableAlias : String) (c : Column) : Column :=
  { c with owner := tableAlias, name := exposedName e.name c.name }

/-- The value by which an entity is compared. -/
def Expr.identity : Expr → Except Error Expr
  | .entity e => .ok (.column e.primaryKey)
  | .entityReference tableAlias _ e => .ok (.column (e.exposedColumn tableAlias e.primaryKey))
  | .entityConstant _ _ primaryKey => .ok primaryKey
  | .named ⟨_, expression⟩ => expression.identity
  | other =>
    if other.isNullConstant then .ok other
    else .error (.unsupportedExpression other.kind .comparedWithEntity)

end Comprehension.Sql
