import Comprehension.Text.Quoted

/-!
Dialects: how names, parameters and operators are spelled.
-/
namespace Comprehension.Command

inductive Dialect where
  /-- Transact-SQL. -/
  | sqlServer
deriving DecidableEq, Repr

namespace Dialect

def name : Dialect → String
  | sqlServer => "sqlserver"

/-- A quoted name; the quote that ends it is doubled inside. -/
def quote : Dialect → String → String
  | sqlServer, text => Text.enclosed '[' ']' text

/-- A text literal; a quote inside is doubled. -/
def quoteText : Dialect → String → String
  | sqlServer, text => Text.enclosed '\'' '\'' text

/-- The name of a parameter, counted from one. -/
def placeholder : Dialect → Nat → String
  | sqlServer, n => "@" ++ toString n

/-- The operator that joins two texts. -/
def concatOperator : Dialect → String
  | sqlServer => "+"

/-- Whether booleans can stand both for conditions and for values. -/
def nativeBoolean : Dialect → Bool
  | sqlServer => false

def lowercase (text : String) : String := String.ofList (text.toList.map Char.toLower)

/-- A dialect by one of its names, in any case; a failure gives the name that was looked for. -/
def ofText (text : String) : Except String Dialect :=
  let wanted := lowercase text
  if wanted ∈ ["sqlserver", "mssql", "tsql"] then .ok sqlServer else .error wanted

end Dialect

end Comprehension.Command
