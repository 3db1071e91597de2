import Comprehension.Method.Registry

/-!
Conversions between types, and the names of the types of a command.
-/
namespace Comprehension.Method.Conversion

/-- The name of a type in `CONVERT`, for the types that have one. -/
def sqlType? (type : ValueType) : Option String :=
  match type.underlying with
  | .string => some "NVARCHAR(MAX)"
  | .boolean => some "BIT"
  | .byte => some "TINYINT"
  | .char => some "NCHAR"
  | .dateTime => some "DATETIME"
  | .decimal => some "DECIMAL"
  | .double => some "FLOAT"
  | .int16 => some "SMALLINT"
  | .int32 => some "INT"
  | .int64 => some "BIGINT"
  | .single => some "REAL"
  | _ => none

def convert : Transformer := fun c =>
  match sqlType? c.type with
  | none => .error (.invalidArgument c.signature (.noSqlType c.type))
  | some target => do return .convert target (← c.argument 0) c.type

def targets : List String :=
  ["ToString", "ToBoolean", "ToByte", "ToChar", "ToDateTime", "ToDecimal", "ToDouble", "ToInt16",
   "ToInt32", "ToInt64", "ToSingle"]

def sources : List String :=
  ["Boolean", "Byte", "Char", "DateTime", "Decimal", "Double", "Int16", "Int32", "Int64",
   "Object", "Single", "String"]

/-- Every source converts to every target. -/
def methods : List (Signature × Transformer) :=
  targets.flatMap fun target =>
    sources.map fun source => (.method "Convert" target [source], convert)

end Comprehension.Method.Conversion
