/-!
Static types of expressions. The name of a type is the word that method signatures use for it.
-/
namespace Comprehension

inductive ValueType where
  | boolean
  | byte
  | int16
  | int32
  | int64
  | single
  | double
  | decimal
  | char
  | string
  | dateTime
  | dateOnly
  | timeSpan
  | object
  /-- A mapped domain type: one row of a table. -/
  | entity (name : String)
  | sequence (item : ValueType)
  /-- A type that also admits null. -/
  | nullable (inner : ValueType)
deriving DecidableEq, Repr

namespace ValueType

def name : ValueType → String
  | boolean => "Boolean"
  | byte => "Byte"
  | int16 => "Int16"
  | int32 => "Int32"
  | int64 => "Int64"
  | single => "Single"
  | double => "Double"
  | decimal => "Decimal"
  | char => "Char"
  | string => "String"
  | dateTime => "DateTime"
  | dateOnly => "DateOnly"
  | timeSpan => "TimeSpan"
  | object => "Object"
  | entity name => name
  | sequence item => "Sequence<" ++ item.name ++ ">"
  | nullable inner => "Nullable<" ++ inner.name ++ ">"

/-- The type that also admits null; a nullable type is one already. -/
def orNull : ValueType → ValueType
  | nullable inner => nullable inner
  | type => nullable type

/-- The type without its nullable wrappers. -/
def underlying : ValueType → ValueType
  | nullable inner => inner.underlying
  | type => type

@[simp] theorem underlying_nullable (t : ValueType) : (nullable t).underlying = t.underlying := rfl

@[simp] theorem underlying_orNull (t : ValueType) : t.orNull.underlying = t.underlying := by
  cases t <;> rfl

def isBoolean (type : ValueType) : Bool := type.underlying = boolean

/-- Texts and single characters. -/
def isString (type : ValueType) : Bool := type.underlying = string ∨ type.underlying = char

def isEntity (type : ValueType) : Bool :=
  match type.underlying with
  | entity _ => true
  | _ => false

/-- Whether a column of this type may hold null. -/
def admitsNull : ValueType → Bool
  | nullable _ | string | object | entity _ => true
  | _ => false

def itemType? : ValueType → Option ValueType
  | sequence item => some item
  | _ => none

end ValueType

end Comprehension
