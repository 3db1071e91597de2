import Comprehension.Method.Registry

/-!
Full-text predicates. Their language is part of the command text and no parameter, so it has to be
a constant.
-/
namespace Comprehension.Method.FullText

open Sql (Expr Call)

/-- `LANGUAGE` with a number or a quoted name. -/
def language (c : Call) : Expr → Except Error Expr
  | .constant (.int code) _ => .ok (.customText ("LANGUAGE " ++ toString code) .string)
  | .constant (.string name) _ =>
    .ok (.customText ("LANGUAGE " ++ Text.enclosed (Char.ofNat 39) (Char.ofNat 39) name) .string)
  | other => .error (.invalidArgument c.signature (.languageNotLiteral other.kind))

def search (function : String) : Transformer := fun c => do
  let column ← c.argument 0
  let condition ← c.argument 1
  match c.arguments[2]? with
  | none => return .predicateFunction function [column, condition]
  | some code => return .predicateFunction function [column, condition, ← language c code]

def methods : List (Signature × Transformer) :=
  [("ContainsFulltext", "CONTAINS"), ("ContainsFreetext", "FREETEXT")].flatMap
    fun (method, function) =>
      [["String", "String"], ["String", "String", "String"], ["String", "String", "Int32"]].map
        fun parameters => (.method "FullText" method parameters, search function)

end Comprehension.Method.FullText
