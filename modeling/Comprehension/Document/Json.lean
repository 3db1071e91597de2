import Comprehension.Document.Basic
import Comprehension.Text.Split

/-!
Documents as JSON text. The reader is strict; integers stay integers within 64 bits, and other
numbers are rounded to the nearest double. Main operations: `Document.ofJson?`, `Document.json` and
`Document.pretty`.
-/
namespace Comprehension.Document

namespace Json

def isBlank (c : Char) : Bool := c == ' ' || c == '\t' || c == '\n' || c == '\r'

def skipBlank (cs : List Char) : List Char := cs.dropWhile isBlank

def hexValue? (c : Char) : Option Nat :=
  if c.isDigit then some (c.toNat - '0'.toNat)
  else if 'a' ≤ c ∧ c ≤ 'f' then some (c.toNat - 'a'.toNat + 10)
  else if 'A' ≤ c ∧ c ≤ 'F' then some (c.toNat - 'A'.toNat + 10)
  else none

/-- A code unit of four hexadecimal digits. -/
def unit? (a b c d : Char) : Option Nat := do
  return (((← hexValue? a) * 16 + (← hexValue? b)) * 16 + (← hexValue? c)) * 16 + (← hexValue? d)

/-- The character of a one-letter escape. -/
def escaped? : Char → Option Char
  | '"' => some '"'
  | '\\' => some '\\'
  | '/' => some '/'
  | 'b' => some '\x08'
  | 'f' => some '\x0c'
  | 'n' => some '\n'
  | 'r' => some '\r'
  | 't' => some '\t'
  | _ => none

def isHighSurrogate (n : Nat) : Bool := 0xD800 ≤ n && n < 0xDC00

def isLowSurrogate (n : Nat) : Bool := 0xDC00 ≤ n && n < 0xE000

/-- The rest of a text after its opening quote. Code units above the basic plane come in pairs. -/
def text? : List Char → Option (List Char × List Char)
  | [] => none
  | '"' :: rest => some ([], rest)
  | '\\' :: 'u' :: a :: b :: c :: d :: rest => do
    let first ← unit? a b c d
    if isLowSurrogate first then none
    else if isHighSurrogate first then
      match rest with
      | '\\' :: 'u' :: e :: f :: g :: h :: rest =>
        let second ← unit? e f g h
        if isLowSurrogate second then
          let (cs, rest) ← text? rest
          return (Char.ofNat (0x10000 + (first - 0xD800) * 0x400 + (second - 0xDC00)) :: cs, rest)
        else none
      | _ => none
    else
      let (cs, rest) ← text? rest
      return (Char.ofNat first :: cs, rest)
  | '\\' :: c :: rest => do
    let c ← escaped? c
    let (cs, rest) ← text? rest
    return (c :: cs, rest)
  | c :: rest =>
    if c.toNat < 0x20 || c == '\\' then none
    else do
      let (cs, rest) ← text? rest
      return (c :: cs, rest)

def digitsValue (cs : List Char) : Nat := cs.foldl (fun n c => n * 10 + (c.toNat - '0'.toNat)) 0

/-- Digits, at least one. -/
def digits? (cs : List Char) : Option (List Char × List Char) :=
  match cs.takeWhile Char.isDigit with
  | [] => none
  | ds => some (ds, cs.dropWhile Char.isDigit)

/-- The digits of a fraction, if there is one. -/
def fraction? : List Char → Option (Option (List Char) × List Char)
  | '.' :: rest => do
    let (ds, rest) ← digits? rest
    return (some ds, rest)
  | cs => some (none, cs)

/-- An exponent, if there is one. -/
def exponent? : List Char → Option (Option Int × List Char)
  | [] => some (none, [])
  | c :: rest =>
    if c == 'e' || c == 'E' then do
      let (negative, rest) := match rest with
        | '-' :: rest => (true, rest)
        | '+' :: rest => (false, rest)
        | rest => (false, rest)
      let (ds, rest) ← digits? rest
      let n : Int := digitsValue ds
      return (some (if negative then -n else n), rest)
    else some (none, c :: rest)

/-- The number that the parts of its text stand for. Integers of 64 bits stay integers, except the
negative zero. -/
def number? (negative : Bool) (whole : List Char) (fraction : Option (List Char))
    (exponent : Option Int) : Option Document :=
  let m := digitsValue (whole ++ fraction.getD [])
  let isInt := fraction.isNone && exponent.isNone &&
    (if negative then m ≠ 0 && m ≤ Nat.pow 2 63 else m < Nat.pow 2 64)
  if isInt then some (.int (if negative then -(m : Int) else m))
  else (Decimal.Double.ofDecimal? negative m
    (exponent.getD 0 - ((fraction.getD []).length : Int))).map .double

/-- A number. A leading zero stands alone. -/
def readNumber? (cs : List Char) : Option (Document × List Char) := do
  let (negative, cs) := match cs with
    | '-' :: rest => (true, rest)
    | cs => (false, cs)
  let (whole, rest) ← digits? cs
  if 1 < whole.length && whole.head? == some '0' then none
  else
    let (fraction, rest) ← fraction? rest
    let (exponent, rest) ← exponent? rest
    return (← number? negative whole fraction exponent, rest)

mutual

/-- Reads one value; every step uses up some of `fuel`. -/
def value? : Nat → List Char → Option (Document × List Char)
  | 0, _ => none
  | fuel + 1, cs =>
    match skipBlank cs with
    | 'n' :: 'u' :: 'l' :: 'l' :: rest => some (.null, rest)
    | 't' :: 'r' :: 'u' :: 'e' :: rest => some (.bool true, rest)
    | 'f' :: 'a' :: 'l' :: 's' :: 'e' :: rest => some (.bool false, rest)
    | '"' :: rest => (text? rest).map fun (cs, rest) => (.text (String.ofList cs), rest)
    | '[' :: rest =>
      match skipBlank rest with
      | ']' :: rest => some (.list [], rest)
      | rest => (items? fuel rest).map fun (items, rest) => (.list items, rest)
    | '{' :: rest =>
      match skipBlank rest with
      | '}' :: rest => some (.record [], rest)
      | rest => (fields? fuel rest).map fun (fields, rest) => (.record fields, rest)
    | cs => readNumber? cs

/-- The values of a list and its closing bracket. -/
def items? : Nat → List Char → Option (List Document × List Char)
  | 0, _ => none
  | fuel + 1, cs => do
    let (d, rest) ← value? fuel cs
    match skipBlank rest with
    | ']' :: rest => return ([d], rest)
    | ',' :: rest =>
      let (items, rest) ← items? fuel rest
      return (d :: items, rest)
    | _ => none

/-- The fields of a record and its closing brace. -/
def fields? : Nat → List Char → Option (List (String × Document) × List Char)
  | 0, _ => none
  | fuel + 1, cs =>
    match skipBlank cs with
    | '"' :: rest => do
      let (name, rest) ← text? rest
      match skipBlank rest with
      | ':' :: rest =>
        let (d, rest) ← value? fuel rest
        match skipBlank rest with
        | '}' :: rest => return ([(String.ofList name, d)], rest)
        | ',' :: rest =>
          let (fields, rest) ← fields? fuel rest
          return ((String.ofList name, d) :: fields, rest)
        | _ => none
      | _ => none
    | _ => none

end

/-- One character of a written text. -/
def written (c : Char) : List Char :=
  if c = '"' then ['\\', '"']
  else if c = '\\' then ['\\', '\\']
  else if c = '\n' then ['\\', 'n']
  else if c = '\r' then ['\\', 'r']
  else if c = '\t' then ['\\', 't']
  else if c = '\x08' then ['\\', 'b']
  else if c = '\x0c' then ['\\', 'f']
  else if c.toNat < 0x20 then
    ['\\', 'u', '0', '0', Nat.digitChar (c.toNat / 16), Nat.digitChar (c.toNat % 16)]
  else [c]

/-- A text between quotes. -/
def writeText (s : String) : String :=
  String.ofList ('"' :: s.toList.flatMap written ++ ['"'])

end Json

open Json

/-- Reads a whole text; nothing but blanks may follow the value. -/
def ofJson? (s : String) : Option Document :=
  let cs := s.toList
  -- A value or a list of them takes a step without a character of its own.
  match value? (2 * cs.length + 2) cs with
  | some (d, rest) => if (skipBlank rest).isEmpty then some d else none
  | none => none

mutual

/-- A document on one line. -/
def json : Document → String
  | null => "null"
  | bool b => if b then "true" else "false"
  | int n => toString n
  | double x => x.documentText
  | text s => writeText s
  | list items => "[" ++ Text.joined "," (listJson items) ++ "]"
  | record fields => "\x7b" ++ Text.joined "," (fieldsJson fields) ++ "\x7d"

def listJson : List Document → List String
  | [] => []
  | d :: rest => d.json :: listJson rest

def fieldsJson : List (String × Document) → List String
  | [] => []
  | (name, d) :: rest => (writeText name ++ ":" ++ d.json) :: fieldsJson rest

end

/-- The start of a line, two blanks for each level. -/
def indent (level : Nat) : String := "\n" ++ String.ofList (List.replicate (2 * level) ' ')

mutual

/-- A document with every field and item on a line of its own. -/
def prettyAt (level : Nat) : Document → String
  | null => "null"
  | bool b => if b then "true" else "false"
  | int n => toString n
  | double x => x.documentText
  | text s => writeText s
  | list [] => "[]"
  | list (d :: rest) =>
    "[" ++ indent (level + 1) ++ d.prettyAt (level + 1) ++
      String.join (listPrettyAt (level + 1) rest) ++ indent level ++ "]"
  | record [] => "\x7b\x7d"
  | record ((name, d) :: rest) =>
    "\x7b" ++ indent (level + 1) ++ writeText name ++ ": " ++ d.prettyAt (level + 1) ++
      String.join (fieldsPrettyAt (level + 1) rest) ++ indent level ++ "\x7d"

def listPrettyAt (level : Nat) : List Document → List String
  | [] => []
  | d :: rest => ("," ++ indent level ++ d.prettyAt level) :: listPrettyAt level rest

def fieldsPrettyAt (level : Nat) : List (String × Document) → List String
  | [] => []
  | (name, d) :: rest =>
    ("," ++ indent level ++ writeText name ++ ": " ++ d.prettyAt level) :: fieldsPrettyAt level rest

end

/-- A document over several lines. -/
def pretty (d : Document) : String := d.prettyAt 0

end Comprehension.Document
