import Comprehension.Command.Dialect
import Comprehension.Value.Basic

/-!
Commands: a text and its parameters, which are numbered in the order in which they occur. A command
is put together from pieces, and only then spelled in a dialect.
-/
namespace Comprehension

namespace Command

inductive Piece where
  | text (text : String)
  /-- The name of a table, a column or an alias. -/
  | identifier (name : String)
  /-- A text between quotes. -/
  | literal (text : String)
  /-- The operator that joins two texts. -/
  | concat
  | parameter (value : Value)
deriving DecidableEq

structure Parameter where
  name : String
  value : Value
deriving DecidableEq

end Command

open Command in
structure Command where
  text : String := ""
  parameters : List Parameter := []
deriving DecidableEq

namespace Command

/-- The name of the next parameter. -/
def nextName (dialect : Dialect) (c : Command) : String :=
  dialect.placeholder (c.parameters.length + 1)

/-- Adds a piece at the end. -/
def append (dialect : Dialect) (c : Command) : Piece → Command
  | .text text => { c with text := c.text ++ text }
  | .identifier name => { c with text := c.text ++ dialect.quote name }
  | .literal text => { c with text := c.text ++ dialect.quoteText text }
  | .concat => { c with text := c.text ++ dialect.concatOperator }
  | .parameter value =>
    let name := c.nextName dialect
    { text := c.text ++ name, parameters := c.parameters ++ [⟨name, value⟩] }

def ofPieces (dialect : Dialect) (pieces : List Piece) : Command :=
  pieces.foldl (append dialect) {}

@[simp] theorem ofPieces_nil (dialect : Dialect) : ofPieces dialect [] = {} := rfl

/-- The value of a parameter. -/
def parameter? (c : Command) (name : String) : Option Value :=
  (c.parameters.find? fun p => p.name = name).map Parameter.value

/-- The text, and each parameter on a line of its own. -/
def display (c : Command) : String :=
  c.text ++ String.join (c.parameters.map fun p => "\n  " ++ p.name ++ " = " ++ p.value.text)

end Command

end Comprehension
