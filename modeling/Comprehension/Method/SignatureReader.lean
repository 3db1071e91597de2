import Comprehension.Method.Signature
import Comprehension.Text.Alphanumeric
import Comprehension.Text.Parser

/-!
Reading a signature: an identifier, a dot, an identifier, and for a method a list of type names in
parentheses. A parameter list that is not complete is not read at all, so the text that is left
over then starts just after the name.
-/
namespace Comprehension.Method

open Text (Expectation Parser Refusal)
open Text.Parser (blanks delimited mark optional preceded run separatedList)

/-- A text that is no signature, with the text from the failing position on. -/
structure SignatureFault where
  input : String
  rest : List Char
  expected : Expectation
deriving DecidableEq, Repr

namespace Signature

def isIdentifierChar (c : Char) : Bool := Text.isAlphanumeric c || c == '_'

/-- Type names may carry type arguments. -/
def isTypeChar (c : Char) : Bool := isIdentifierChar c || c == '<' || c == '>'

def identifier : Parser String := (run isIdentifierChar).map String.ofList

def typeName : Parser String := (run isTypeChar).map String.ofList

/-- One type name with blanks around it. -/
def parameter : Parser String := delimited blanks typeName blanks

def comma : Parser Char := delimited blanks (mark ',') blanks

def parameterList : Parser (List String) :=
  delimited (mark '(') (separatedList comma parameter) (mark ')')

def parser : Parser Signature :=
  ((identifier.pair ((mark '.').pair identifier)).pair
      (optional (preceded blanks parameterList))).map
    fun ((declaringType, _, name), parameters) => ⟨declaringType, name, parameters⟩

/-- Reads trimmed text. -/
def scan (cs : List Char) : Except Refusal Signature := parser.whole cs

/-- Reads a signature with white space allowed around it. -/
def ofText (input : String) : Except SignatureFault Signature :=
  match scan (Text.trim input.toList) with
  | .ok signature => .ok signature
  | .error ⟨rest, expected⟩ => .error ⟨input, rest, expected⟩

end Signature

end Comprehension.Method
