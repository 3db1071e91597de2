import Comprehension.Command.Render
import Comprehension.Prepared.Query
import Comprehension.Resolved.Statement

/-!
Compilation of a query: it is prepared into a statement, the statement is resolved against a
mapping, and the resolved statement is written as a command. One supply of fresh names serves all
of it.
-/
namespace Comprehension

open Command (Dialect)
open Method (Registry)
open Sql (Statement)

structure Options where
  dialect : Dialect := .sqlServer
  /-- Whether booleans are values; the dialect decides where nothing is said. -/
  nativeBoolean? : Option Bool := none
deriving DecidableEq

namespace Options

def nativeBoolean (o : Options) : Bool := o.nativeBoolean?.getD o.dialect.nativeBoolean

end Options

namespace Query.Model

/-- The resolved statement of a query. -/
def statement (registry : Registry) (mapping : Mapping) (options : Options) (m : Model) :
    Supply Statement := do
  (← m.prepare registry).resolve mapping options.nativeBoolean

/-- Compiles a query into a command. -/
def compile (registry : Registry) (mapping : Mapping) (options : Options) (m : Model) :
    Except Error Command := do
  let (statement, _) ← (m.statement registry mapping options).run {}
  statement.command options.dialect options.nativeBoolean

end Query.Model

end Comprehension
