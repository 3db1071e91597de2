import Comprehension.Compile
import Comprehension.Exchange.Value

/-!
Reading schemas and compile options out of configuration documents.
-/
namespace Comprehension

open Document (Reading ifGiven each asText asBool choice)

/-- The entries of a table, each read. -/
def readEntries {α : Type} (read : Document → Reading α) (d : Document) :
    Reading (List (String × α)) := do
  (← d.asRecord).mapM fun (name, entry) => do return (name, ← read entry)

namespace ColumnMapping

def ofDocument (d : Document) : Reading ColumnMapping := do
  let [some name, column, some type, nullable] ←
    d.parts .toml ["name", "column", "type", "nullable"] | throw .malformed
  return ⟨← name.asText, ← ifGiven asText column, ← ValueType.ofDocument .toml type,
    (← ifGiven asBool nullable).getD false⟩

end ColumnMapping

namespace Relation

def ofDocument (d : Document) : Reading Relation := do
  let [some target, some foreignKey, targetKey] ←
    d.parts .toml ["target", "foreign_key", "target_key"] | throw .malformed
  return ⟨← target.asText, ← foreignKey.asText, ← ifGiven asText targetKey⟩

end Relation

namespace TypeMapping

def ofDocument (d : Document) : Reading TypeMapping := do
  let [some table, some primaryKey, some columns, relations] ←
    d.parts .toml ["table", "primary_key", "columns", "relations"] | throw .malformed
  return ⟨← table.asText, ← primaryKey.asText, ← columns.each ColumnMapping.ofDocument,
    (← ifGiven (readEntries Relation.ofDocument) relations).getD []⟩

end TypeMapping

namespace Schema

/-- Reads a schema. -/
def ofDocument (d : Document) : Reading Schema := do
  let [types] ← d.members ["types"] | throw .malformed
  return ⟨(← ifGiven (readEntries TypeMapping.ofDocument) types).getD []⟩

end Schema

namespace Options

def readDialect (d : Document) : Reading Command.Dialect := do
  choice [(Command.Dialect.sqlServer.name, .sqlServer)] (← d.bareTag .toml)

/-- Reads compile options; what is left out has its default. -/
def ofDocument (d : Document) : Reading Options := do
  let [dialect, nativeBoolean] ← d.members ["dialect", "native_boolean"] | throw .malformed
  return ⟨(← ifGiven readDialect dialect).getD .sqlServer, ← ifGiven asBool nativeBoolean⟩

end Options

end Comprehension
