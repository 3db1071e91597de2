import Comprehension.Method.Registry

/-!
`LIKE` patterns. A text to be found as it stands has its wildcards escaped, and an anchor puts a
wildcard on the sides where the text may go on.
-/
namespace Comprehension.Method.Pattern

open Sql (Expr)

/-- The character that takes the meaning from the one after it. -/
def escapeChar : Char := '\\'

/-- The characters that a pattern does not match by themselves, the escape character first. -/
def wildcards : List Char := [escapeChar, '%', '_', '[']

def isWildcard (c : Char) : Bool := wildcards.contains c

def escapeChars (cs : List Char) : List Char :=
  cs.flatMap fun c => if isWildcard c then [escapeChar, c] else [c]

/-- A pattern that matches the text only. -/
def escape (text : String) : String := String.ofList (escapeChars text.toList)

@[simp] theorem escapeChars_nil : escapeChars [] = [] := rfl

theorem escapeChars_cons (c : Char) (cs : List Char) :
    escapeChars (c :: cs) = (if isWildcard c then [escapeChar, c] else [c]) ++ escapeChars cs := rfl

/-- Where a text is looked for. -/
inductive Anchor where
  | anywhere
  | start
  | finish
deriving DecidableEq, Repr

/-- The pattern around an escaped text. -/
def Anchor.pattern (anchor : Anchor) (escaped : String) : String :=
  match anchor with
  | anywhere => "%" ++ escaped ++ "%"
  | start => escaped ++ "%"
  | finish => "%" ++ escaped

/-- The pattern around an expression for an escaped text. -/
def Anchor.expression (anchor : Anchor) (escaped : Expr) : Expr :=
  match anchor with
  | anywhere => .concat (.concat (.text "%") escaped) (.text "%")
  | start => .concat escaped (.text "%")
  | finish => .concat (.text "%") escaped

/-- A search for the argument. Constant texts are escaped right away, others by the command, and
nothing contains a null. -/
def search (anchor : Anchor) : Transformer := fun c => do
  let value ← c.instance?
  match ← c.argument 0 with
  | .constant .null _ => return .constant (.bool false) .boolean
  | .constant (.string text) _ =>
    return .like value (.constant (.string (anchor.pattern (escape text))) .string)
  | pattern => return .like value (anchor.expression (.likeEscape pattern))

def methods : List (Signature × Transformer) :=
  [(.method "String" "Contains" ["String"], search .anywhere),
   (.method "String" "StartsWith" ["String"], search .start),
   (.method "String" "EndsWith" ["String"], search .finish)]

end Comprehension.Method.Pattern
