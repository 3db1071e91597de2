import Comprehension.Fresh
import Comprehension.Schema.Basic

/-!
The mapping of a compilation: a schema, and sources and joins that take the place of what the
schema says for some types and members.
-/
namespace Comprehension

/-- A joined source and the two keys that are equal, the one of the table it is joined to first. -/
structure JoinTarget where
  source : Sql.Source
  leftKey : Sql.Expr
  rightKey : Sql.Expr

def JoinTarget.link (t : JoinTarget) : Sql.Link := .resolved t.source t.leftKey t.rightKey

namespace Schema

/-- A relation with the mappings of the types at its two ends. -/
structure Path where
  origin : TypeMapping
  relation : Relation
  target : TypeMapping

def path (s : Schema) (entity : Sql.Entity) (member : String) : Except Error Path := do
  let origin ← s.typeMapping entity.itemType
  match origin.relations.lookup member with
  | none => throw (.unmapped .relation (entity.itemType ++ "." ++ member))
  | some relation => return ⟨origin, relation, ← s.typeMapping relation.target⟩

/-- The join along a relation, with the target under an alias. -/
def Path.join (p : Path) (entity : Sql.Entity) (tableAlias : String) : Except Error JoinTarget := do
  let leftKey ← p.origin.column entity.itemType p.relation.foreignKey entity.tableAlias
  let targetKey := p.relation.targetKey.getD p.target.primaryKey
  let rightKey ← p.target.column p.relation.target targetKey tableAlias
  return ⟨.table p.relation.target p.target.table tableAlias, .column leftKey, .column rightKey⟩

end Schema

structure Mapping where
  schema : Schema
  /-- Sources for domain types. -/
  sources : List (String × Sql.Source)
  /-- Joins for members, each under its type, a dot and the member. -/
  joins : List (String × JoinTarget)

namespace Mapping

open Supply (freshAlias)

def ofSchema (schema : Schema) : Mapping := ⟨schema, [], []⟩

/-- The source of a domain type: its table under a fresh alias. -/
def source (m : Mapping) (itemType : String) : Supply Sql.Source :=
  match m.sources.lookup itemType with
  | some source => pure source
  | none => do
    let mapping ← m.schema.typeMapping itemType
    return .table itemType mapping.table (← freshAlias "t")

/-- The join from an entity along a member. -/
def join (m : Mapping) (entity : Sql.Entity) (member : String) : Supply JoinTarget :=
  match m.joins.lookup (entity.itemType ++ "." ++ member) with
  | some target => pure target
  | none => do
    let path ← m.schema.path entity member
    path.join entity (← freshAlias "t")

end Mapping

end Comprehension
