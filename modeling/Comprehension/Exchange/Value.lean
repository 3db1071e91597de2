import Comprehension.Document.Reading
import Comprehension.Query.Basic
import Comprehension.Value.Basic
import Comprehension.Value.Type

/-!
Types and values as documents.
-/
namespace Comprehension

open Document

namespace ValueType

/-- The types that are a word. -/
def words : List (String × ValueType) :=
  [boolean, byte, int16, int32, int64, single, double, decimal, char, string, dateTime, dateOnly,
    timeSpan, object].map fun type => (type.name, type)

def document : ValueType → Document
  | entity name => tagged "Entity" (.text name)
  | sequence item => tagged "Sequence" item.document
  | nullable inner => tagged "Nullable" inner.document
  | word => .text word.name

def ofDocumentWithin (form : Form) : Nat → Document → Reading ValueType
  | 0, _ => .error .malformed
  | fuel + 1, d => do
    match ← d.variant with
    | ("Entity", some name) => return entity (← name.asText)
    | ("Sequence", some item) => return sequence (← ofDocumentWithin form fuel item)
    | ("Nullable", some inner) => return nullable (← ofDocumentWithin form fuel inner)
    | (tag, content) => if form.isBare content then choice words tag else throw .malformed

/-- Reads a type. -/
def ofDocument (form : Form) (d : Document) : Reading ValueType :=
  ofDocumentWithin form (d.depth + 1) d

end ValueType

namespace Value

/-- The document of a value, given the one of its numbers. -/
def documentWith (number : Decimal.Double → Document) : Value → Document
  | null => .text "Null"
  | bool b => tagged "Bool" (.bool b)
  | int n => tagged "Int" (.int n)
  | float x => tagged "Float" (number x)
  | string s => tagged "String" (.text s)
  | char c => tagged "Char" (.text (String.singleton c))
  | date d => tagged "Date" (.text d.text)
  | dateTime t => tagged "DateTime" (.text (t.textWith 'T'))
  | entity typeName id =>
    tagged "Entity" (.record [("type_name", .text typeName), ("id", id.documentWith number)])

/-- The document of a value whose numbers are exchanged bit by bit. -/
def document : Value → Document := documentWith fun x => .text x.hex

/-- A number: a double, or the double nearest to an integer. -/
def asDouble : Document → Reading Decimal.Double
  | .double x => .ok x
  | .int n => required (Decimal.Double.ofDecimal? (n < 0) n.natAbs 0)
  | _ => .error .malformed

/-- A text of one character. -/
def asChar (d : Document) : Reading Char := do
  match (← d.asText).toList with
  | [c] => return c
  | _ => throw .malformed

def ofDocumentWithin : Nat → Document → Reading Value
  | 0, _ => .error .malformed
  | fuel + 1, d => do
    match ← d.variant with
    | ("Bool", some d) => return bool (← d.asBool)
    | ("Int", some d) => return int (← d.asInt 64)
    | ("Float", some d) => return float (← asDouble d)
    | ("String", some d) => return string (← d.asText)
    | ("Char", some d) => return char (← asChar d)
    | ("Date", some d) => return date (← required (Calendar.Date.ofText? (← d.asText)))
    | ("DateTime", some d) => return dateTime (← required (Calendar.DateTime.ofText? (← d.asText)))
    | ("Entity", some d) =>
      let [some typeName, some id] ← d.parts .json ["type_name", "id"] | throw .malformed
      return entity (← typeName.asText) (← ofDocumentWithin fuel id)
    | (tag, content) =>
      if Form.json.isBare content && tag = "Null" then return null else throw .malformed

/-- Reads a value. -/
def ofDocument (d : Document) : Reading Value := ofDocumentWithin (d.depth + 1) d

end Value

namespace Query.Direction

def words : List (String × Direction) := [("Asc", .asc), ("Desc", .desc)]

def ofDocument (d : Document) : Reading Direction := do
  choice words (← d.bareTag .json)

def document : Direction → Document
  | asc => .text "Asc"
  | desc => .text "Desc"

end Query.Direction

end Comprehension
