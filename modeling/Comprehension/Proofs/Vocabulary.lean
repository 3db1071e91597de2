import Comprehension.Proofs.Tree
import Comprehension.Text.Quoted

/-!
The words of commands. Functions, types and date parts are written as they stand, so they come from
fixed lists; of everything that a query brings along only the language of a full-text search is
written into the text, as a number or between quotes.
-/
namespace Comprehension.Sql

namespace Vocabulary

def functions : List String :=
  ["LEN", "SUBSTRING", "STUFF", "UPPER", "LOWER", "LTRIM", "RTRIM", "CHARINDEX", "DATEADD",
   "DATEPART", "CONTAINS", "FREETEXT", "COALESCE"]

/-- The types that values are converted to. -/
def types : List String :=
  ["NVARCHAR(MAX)", "BIT", "TINYINT", "NCHAR", "DATETIME", "DECIMAL", "FLOAT", "SMALLINT", "INT",
   "BIGINT", "REAL"]

def dateParts : List String := ["year", "month", "day", "hour", "minute", "second", "millisecond"]

end Vocabulary

/-- The text that a node writes by itself. -/
def Expr.wording : Expr → Option String
  | .function name _ _ _ => some name
  | .convert target _ _ => some target
  | .customText text _ => some text
  | _ => none

/-- Whether a text may be written by nodes of a kind. -/
def Kind.Knows : Kind → String → Prop
  | .function, name => name ∈ Vocabulary.functions
  | .convert, target => target ∈ Vocabulary.types
  | .customText, text =>
    text ∈ Vocabulary.dateParts ∨ (∃ code : Int, text = "LANGUAGE " ++ toString code) ∨
      ∃ name, text = "LANGUAGE " ++ Text.enclosed '\'' '\'' name
  | _, _ => True

/-- Whether the text of a node comes from the lists. -/
def Expr.IsWorded (e : Expr) : Prop := ∀ text, e.wording = some text → e.kind.Knows text

theorem Expr.worded_of_wording_eq_none {e : Expr} (h : e.wording = none) : e.IsWorded := by
  intro text ht
  rw [h] at ht
  cases ht

end Comprehension.Sql
