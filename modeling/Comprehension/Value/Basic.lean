import Comprehension.Calendar.DateTime
import Comprehension.Decimal.Notation

/-!
Literal values, as constants of a query and as parameters of a command.
-/
namespace Comprehension

inductive Value where
  | null
  | bool (b : Bool)
  | int (n : Int)
  | float (x : Decimal.Double)
  | string (s : String)
  | char (c : Char)
  | date (d : Calendar.Date)
  | dateTime (t : Calendar.DateTime)
  /-- A domain object: its type and the value of its primary key. -/
  | entity (typeName : String) (id : Value)
deriving DecidableEq

namespace Value

def isNull : Value → Bool
  | null => true
  | _ => false

def string? : Value → Option String
  | string s => some s
  | _ => none

/-- The text of a value in messages and listings; texts and characters are not escaped. -/
def text : Value → String
  | null => "null"
  | bool true => "true"
  | bool false => "false"
  | int n => toString n
  | float x => x.text
  | string s => "\"" ++ s ++ "\""
  | char c => "'" ++ String.singleton c ++ "'"
  | date d => d.text
  | dateTime t => t.textWith ' '
  | entity typeName id => typeName ++ "#" ++ id.text

end Value

end Comprehension
