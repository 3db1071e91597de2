import Comprehension.Method.Registry

/-!
`Equals`, called on a value or with both values as arguments.
-/
namespace Comprehension.Method.Equality

open Sql (Expr)

def equals : Transformer := fun c => do
  match c.object with
  | some object => return .equal object (← c.argument 0)
  | none => return .equal (← c.argument 0) (← c.argument 1)

def types : List String :=
  ["Boolean", "Char", "DateTime", "Decimal", "Double", "Int16", "Int32", "Int64", "Object",
   "String"]

def methods : List (Signature × Transformer) :=
  types.flatMap fun type =>
    [[type], [type, type], ["Object"]].map fun parameters =>
      (.method type "Equals" parameters, equals)

end Comprehension.Method.Equality
