import Comprehension.Text.Hidden

/-!
Quoted text. Messages show a text between double quotes with escapes; commands write names and
literals between delimiters, with the closing delimiter doubled inside.
-/
namespace Comprehension.Text

/-- One character between the quotes of a message. -/
def shown (c : Char) : List Char :=
  if c = '"' then ['\\', '"']
  else if c = '\\' then ['\\', '\\']
  else if c = '\n' then ['\\', 'n']
  else if c = '\r' then ['\\', 'r']
  else if c = '\t' then ['\\', 't']
  else if c.toNat = 0 then ['\\', '0']
  else if isHidden c then ['\\', 'u', '{'] ++ Nat.toDigits 16 c.toNat ++ ['}']
  else [c]

/-- A text as a message shows it. -/
def quoted (cs : List Char) : String :=
  String.ofList ('"' :: cs.flatMap shown ++ ['"'])

/-- Writes every occurrence of one character twice. -/
def double (delimiter : Char) (cs : List Char) : List Char :=
  cs.flatMap fun c => if c = delimiter then [c, c] else [c]

@[simp] theorem double_nil (d : Char) : double d [] = [] := rfl

theorem double_cons (d c : Char) (cs : List Char) :
    double d (c :: cs) = (if c = d then [c, c] else [c]) ++ double d cs := rfl

/-- A text between delimiters that holds its closing delimiter only in pairs. -/
def enclosed (opening closing : Char) (text : String) : String :=
  String.ofList (opening :: double closing text.toList ++ [closing])

end Comprehension.Text
