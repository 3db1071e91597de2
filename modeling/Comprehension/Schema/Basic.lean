import Comprehension.Error
import Comprehension.Sql.Typing

/-!
Mapping schemas: which table a domain type is stored in, which column holds each of its members,
and which members lead to another type.
-/
namespace Comprehension

structure ColumnMapping where
  /-- The member of the domain type. -/
  name : String
  /-- The column, where it is not named like the member. -/
  column : Option String
  type : ValueType
  nullable : Bool
deriving DecidableEq, Repr

namespace ColumnMapping

def columnName (c : ColumnMapping) : String := c.column.getD c.name

def valueType (c : ColumnMapping) : ValueType := if c.nullable then c.type.orNull else c.type

end ColumnMapping

/-- A member that leads to one object of another type. -/
structure Relation where
  target : String
  /-- The member of the originating type that holds the key. -/
  foreignKey : String
  /-- The member of the target that the key refers to, unless it is the primary key. -/
  targetKey : Option String
deriving DecidableEq, Repr

structure TypeMapping where
  table : String
  /-- The member that is the primary key. -/
  primaryKey : String
  columns : List ColumnMapping
  relations : List (String × Relation)
deriving DecidableEq, Repr

structure Schema where
  types : List (String × TypeMapping)
deriving DecidableEq, Repr

namespace TypeMapping

def column? (t : TypeMapping) (member : String) : Option ColumnMapping :=
  t.columns.find? fun c => c.name = member

/-- A column of the type in the table with an alias. -/
def ownedColumn (t : TypeMapping) (tableAlias : String) (c : ColumnMapping) : Sql.Column :=
  ⟨c.valueType, tableAlias, c.columnName, c.name = t.primaryKey⟩

/-- The column of a member in the table with an alias. -/
def column (t : TypeMapping) (itemType member tableAlias : String) : Except Error Sql.Column :=
  match t.column? member with
  | some c => .ok (t.ownedColumn tableAlias c)
  | none => .error (.unmapped .member (itemType ++ "." ++ member))

end TypeMapping

namespace Schema

def typeMapping (s : Schema) (itemType : String) : Except Error TypeMapping :=
  match s.types.lookup itemType with
  | some mapping => .ok mapping
  | none => .error (.unmapped .type itemType)

/-- The columns of a type as one entity of the table with an alias. -/
def entity (s : Schema) (itemType tableAlias : String) : Except Error Sql.Entity := do
  let mapping ← s.typeMapping itemType
  let primaryKey ← mapping.column itemType mapping.primaryKey tableAlias
  return ⟨itemType, tableAlias, none, primaryKey, mapping.columns.map (mapping.ownedColumn tableAlias)⟩

/-- A member of an entity: the step to a related entity, or a column. -/
def member (s : Schema) (entity : Sql.Entity) (member : String) : Except Error Sql.Expr := do
  let mapping ← s.typeMapping entity.itemType
  match mapping.relations.lookup member with
  | some relation => return .navigation entity member (.entity relation.target)
  | none => return .column (← mapping.column entity.itemType member entity.tableAlias)

/-- Columns have no members. -/
def columnMember (column : Sql.Column) (member : String) : Except Error Sql.Expr :=
  .error (.unmapped .member (column.name ++ "." ++ member))

/-- Domain objects become entity constants with their primary key, other values stay as they are. -/
def constant (s : Schema) (value : Value) (type : ValueType) : Except Error Sql.Expr :=
  match value with
  | .entity typeName id => do
    let mapping ← s.typeMapping typeName
    match mapping.column? mapping.primaryKey with
    | some key => return .entityConstant type value (.constant id key.valueType)
    | none => throw (.unmapped .member (typeName ++ "." ++ mapping.primaryKey))
  | value => .ok (.constant value type)

end Schema

end Comprehension
