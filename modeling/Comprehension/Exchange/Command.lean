import Comprehension.Command.Basic
import Comprehension.Exchange.Value

/-!
Commands as documents.
-/
namespace Comprehension.Command

def documentWith (value : Value → Document) (c : Command) : Document :=
  .record
    [("command_text", .text c.text),
     ("parameters", .list (c.parameters.map fun p =>
       .record [("name", .text p.name), ("value", value p.value)]))]

/-- The document of a command whose numbers are exchanged bit by bit. -/
def document (c : Command) : Document := c.documentWith Value.document

/-- The document of a command with plain numbers. -/
def plainDocument (c : Command) : Document := c.documentWith (Value.documentWith .double)

end Comprehension.Command
