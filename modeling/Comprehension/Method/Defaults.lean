import Comprehension.Method.Conversion
import Comprehension.Method.Dates
import Comprehension.Method.Equality
import Comprehension.Method.FullText
import Comprehension.Method.Pattern
import Comprehension.Method.Strings

/-!
The methods that are registered from the start.
-/
namespace Comprehension.Method.Registry

def builtIn : List (Signature × Transformer) :=
  Strings.methods ++ Pattern.methods ++ Dates.methods ++ Conversion.methods ++ FullText.methods ++
    Equality.methods

def defaults : Registry :=
  builtIn.foldl (fun r (signature, transformer) => r.register signature transformer) .empty

end Comprehension.Method.Registry
