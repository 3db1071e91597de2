import Comprehension.Document.Json

/-!
Reading configuration documents from TOML text. Dates and times have no place in a document and are
not read. Main operation: `Document.ofToml?`.
-/
namespace Comprehension.Document

namespace Toml

/-- Where a table comes from, which decides how it may be extended. -/
inductive Origin where
  /-- It was only passed through on the way to another table. -/
  | implied
  /-- It has a header of its own. -/
  | header
  /-- It comes from a key with dots. -/
  | dotted
deriving DecidableEq

inductive Node where
  | value (d : Document)
  | table (origin : Origin) (entries : List (String × Node))
  /-- An array of tables, the last one first. -/
  | tables (items : List (List (String × Node)))

mutual

def Node.document : Node → Document
  | .value d => d
  | .table _ entries => .record (entryDocuments entries)
  | .tables items => .list (tableDocuments items).reverse

def entryDocuments : List (String × Node) → List (String × Document)
  | [] => []
  | (name, node) :: rest => (name, node.document) :: entryDocuments rest

def tableDocuments : List (List (String × Node)) → List Document
  | [] => []
  | entries :: rest => .record (entryDocuments entries) :: tableDocuments rest

end

def put (name : String) (node : Node) : List (String × Node) → List (String × Node)
  | [] => [(name, node)]
  | (other, old) :: rest =>
    if other = name then (name, node) :: rest else (other, old) :: put name node rest

/-- Changes the table that a path of headers leads to; tables on the way are implied. -/
def under (change : List (String × Node) → Option (List (String × Node))) :
    List String → List (String × Node) → Option (List (String × Node))
  | [], entries => change entries
  | name :: path, entries =>
    match entries.lookup name with
    | none => do return put name (.table .implied (← under change path [])) entries
    | some (.table origin inner) => do
      return put name (.table origin (← under change path inner)) entries
    | some (.tables (last :: before)) => do
      return put name (.tables ((← under change path last) :: before)) entries
    | some _ => none

def openTable (name : String) (entries : List (String × Node)) : Option (List (String × Node)) :=
  match entries.lookup name with
  | none => some (put name (.table .header []) entries)
  | some (.table .implied inner) => some (put name (.table .header inner) entries)
  | some _ => none

def addTable (name : String) (entries : List (String × Node)) : Option (List (String × Node)) :=
  match entries.lookup name with
  | none => some (put name (.tables [[]]) entries)
  | some (.tables items) => some (put name (.tables ([] :: items)) entries)
  | some _ => none

/-- Adds a value under a key with dots; no key is used twice. -/
def addValue (d : Document) : List String → List (String × Node) → Option (List (String × Node))
  | [], _ => none
  | [name], entries =>
    if (entries.lookup name).isSome then none else some (put name (.value d) entries)
  | name :: next :: path, entries =>
    match entries.lookup name with
    | none => do return put name (.table .dotted (← addValue d (next :: path) [])) entries
    | some (.table .dotted inner) => do
      return put name (.table .dotted (← addValue d (next :: path) inner)) entries
    | some _ => none

def isSpace (c : Char) : Bool := c == ' ' || c == '\t'

def skipSpace (cs : List Char) : List Char := cs.dropWhile isSpace

def skipComment : List Char → List Char
  | '#' :: rest => rest.dropWhile (· ≠ '\n')
  | cs => cs

/-- The rest of a line after a statement, which holds at most a comment. -/
def endOfLine? (cs : List Char) : Option (List Char) :=
  match skipComment (skipSpace cs) with
  | [] => some []
  | '\n' :: rest => some rest
  | '\r' :: '\n' :: rest => some rest
  | _ => none

/-- Skips blanks, line ends and comments; `fuel` bounds the number of lines. -/
def skipLines : Nat → List Char → List Char
  | 0, cs => cs
  | fuel + 1, cs =>
    match cs.dropWhile fun c => isSpace c || c == '\n' || c == '\r' with
    | '#' :: rest => skipLines fuel (skipComment ('#' :: rest))
    | rest => rest

def charOf? (digits : List Char) : Option Char := do
  let n ← digits.foldlM (fun n c => do return n * 16 + (← Json.hexValue? c)) 0
  if h : n.isValidChar then some (Char.ofNatAux n h) else none

/-- The rest of a text between double quotes. Over several lines a backslash at the end of a line
joins it with the next text. -/
def basic (multiline joining : Bool) : List Char → Option (List Char × List Char)
  | [] => none
  | '"' :: '"' :: '"' :: rest =>
    if multiline then
      match rest with
      | '"' :: '"' :: rest => some (['"', '"'], rest)
      | '"' :: rest => some (['"'], rest)
      | rest => some ([], rest)
    else some ([], '"' :: '"' :: rest)
  | '\\' :: 'u' :: a :: b :: c :: d :: rest => do
    let first ← charOf? [a, b, c, d]
    let (cs, rest) ← basic multiline false rest
    return (first :: cs, rest)
  | '\\' :: 'U' :: a :: b :: c :: d :: e :: f :: g :: h :: rest => do
    let first ← charOf? [a, b, c, d, e, f, g, h]
    let (cs, rest) ← basic multiline false rest
    return (first :: cs, rest)
  | '\\' :: c :: rest =>
    if multiline && (c == '\n' || c == '\r' || isSpace c) then basic multiline true rest
    else do
      let first ← if c == '/' then none else Json.escaped? c
      let (cs, rest) ← basic multiline false rest
      return (first :: cs, rest)
  | c :: rest =>
    if joining && (isSpace c || c == '\n' || c == '\r') then basic multiline true rest
    else if c == '"' && !multiline then some ([], rest)
    else if c == '\\' || (!multiline && (c == '\n' || c == '\r')) then none
    else do
      let (cs, rest) ← basic multiline false rest
      return (c :: cs, rest)

/-- The rest of a text between single quotes, which has no escapes. -/
def literal (multiline : Bool) : List Char → Option (List Char × List Char)
  | [] => none
  | '\'' :: '\'' :: '\'' :: rest =>
    if multiline then some ([], rest) else some ([], '\'' :: '\'' :: rest)
  | c :: rest =>
    if c == '\'' && !multiline then some ([], rest)
    else if !multiline && (c == '\n' || c == '\r') then none
    else do
      let (cs, rest) ← literal multiline rest
      return (c :: cs, rest)

def dropLineEnd : List Char → List Char
  | '\n' :: rest => rest
  | '\r' :: '\n' :: rest => rest
  | cs => cs

def text? : List Char → Option (List Char × List Char)
  | '"' :: '"' :: '"' :: rest => basic true false (dropLineEnd rest)
  | '"' :: rest => basic false false rest
  | '\'' :: '\'' :: '\'' :: rest => literal true (dropLineEnd rest)
  | '\'' :: rest => literal false rest
  | _ => none

def isBareKey (c : Char) : Bool := c.isAlphanum || c == '_' || c == '-'

def keyPart? (cs : List Char) : Option (String × List Char) :=
  match cs with
  | '"' :: rest => (basic false false rest).map fun (name, rest) => (String.ofList name, rest)
  | '\'' :: rest => (literal false rest).map fun (name, rest) => (String.ofList name, rest)
  | cs =>
    match cs.takeWhile isBareKey with
    | [] => none
    | name => some (String.ofList name, cs.dropWhile isBareKey)

def key? : Nat → List Char → Option (List String × List Char)
  | 0, _ => none
  | fuel + 1, cs => do
    let (name, rest) ← keyPart? (skipSpace cs)
    match skipSpace rest with
    | '.' :: rest =>
      let (path, rest) ← key? fuel rest
      return (name :: path, rest)
    | rest => return ([name], rest)

/-- Digits of a base with single underscores between them. -/
def digitsOf? (base : Nat) : List Char → Option Nat
  | [] => none
  | cs =>
    (Text.pieces '_' cs).foldlM (fun n piece =>
      if piece.isEmpty then none
      else piece.foldlM (fun n c => do
        let digit ← Json.hexValue? c
        if digit < base then return n * base + digit else none) n) 0

def int? (n : Int) : Option Document :=
  let bound : Int := Nat.pow 2 63
  if -bound ≤ n ∧ n < bound then some (.int n) else none

def decimal? (negative : Bool) (cs : List Char) : Option Document :=
  let whole := cs.takeWhile fun c => c.isDigit || c == '_'
  match cs.dropWhile fun c => c.isDigit || c == '_' with
  | [] => do
    let n ← digitsOf? 10 whole
    if 1 < whole.length && whole.head? == some '0' then none
    else int? (if negative then -(n : Int) else n)
  | rest => do
    let _ ← digitsOf? 10 whole
    if 1 < whole.length && whole.head? == some '0' then none
    else
      let plain := rest.filter (· ≠ '_')
      let (fraction, plain) ← Json.fraction? plain
      let (exponent, plain) ← Json.exponent? plain
      if plain.isEmpty then
        let digits := (whole.filter (· ≠ '_')) ++ fraction.getD []
        (Decimal.Double.ofDecimal? negative (Json.digitsValue digits)
          (exponent.getD 0 - ((fraction.getD []).length : Int))).map .double
      else none

def infinity (negative : Bool) : Document :=
  .double (Decimal.Double.ofMagnitude negative Decimal.Double.infinityBits)

/-- A value that is a word: a truth value or a number. -/
def word? (cs : List Char) : Option Document :=
  match cs with
  | ['t', 'r', 'u', 'e'] => some (.bool true)
  | ['f', 'a', 'l', 's', 'e'] => some (.bool false)
  | ['i', 'n', 'f'] | ['+', 'i', 'n', 'f'] => some (infinity false)
  | ['-', 'i', 'n', 'f'] => some (infinity true)
  | '0' :: 'x' :: rest => do int? (← digitsOf? 16 rest)
  | '0' :: 'o' :: rest => do int? (← digitsOf? 8 rest)
  | '0' :: 'b' :: rest => do int? (← digitsOf? 2 rest)
  | '-' :: rest => decimal? true rest
  | '+' :: rest => decimal? false rest
  | cs => decimal? false cs

def isWord (c : Char) : Bool := c.isAlphanum || c == '_' || c == '-' || c == '+' || c == '.'

mutual

/-- Reads one value; every step uses up some of `fuel`. -/
def value? : Nat → List Char → Option (Document × List Char)
  | 0, _ => none
  | fuel + 1, cs =>
    match cs with
    | '"' :: _ | '\'' :: _ => (text? cs).map fun (s, rest) => (.text (String.ofList s), rest)
    | '[' :: rest => (items? fuel (skipLines rest.length rest)).map fun (items, rest) =>
      (.list items, rest)
    | '{' :: rest =>
      match skipSpace rest with
      | '}' :: rest => some (.record [], rest)
      | rest => (inline? fuel [] rest).map fun (entries, rest) =>
        (.record (entryDocuments entries), rest)
    | cs => (word? (cs.takeWhile isWord)).map fun d => (d, cs.dropWhile isWord)

/-- The values of an array and its closing bracket; a comma may come last. -/
def items? : Nat → List Char → Option (List Document × List Char)
  | 0, _ => none
  | _ + 1, ']' :: rest => some ([], rest)
  | fuel + 1, cs => do
    let (d, rest) ← value? fuel cs
    match skipLines rest.length rest with
    | ']' :: rest => return ([d], rest)
    | ',' :: rest =>
      let (items, rest) ← items? fuel (skipLines rest.length rest)
      return (d :: items, rest)
    | _ => none

def inline? : Nat → List (String × Node) → List Char → Option (List (String × Node) × List Char)
  | 0, _, _ => none
  | fuel + 1, entries, cs => do
    let (path, rest) ← key? cs.length cs
    match rest with
    | '=' :: rest =>
      let (d, rest) ← value? fuel (skipSpace rest)
      let entries ← addValue d path entries
      match skipSpace rest with
      | '}' :: rest => return (entries, rest)
      | ',' :: rest => inline? fuel entries rest
      | _ => none
    | _ => none

end

def splitLast? (path : List String) : Option (List String × String) := do
  return (path.dropLast, ← path.getLast?)

/-- Reads headers and entries one after the other; entries go to the table of the last header. -/
def statements : Nat → List String → List (String × Node) → List Char →
    Option (List (String × Node))
  | 0, _, _, _ => none
  | fuel + 1, current, root, cs =>
    match skipLines cs.length cs with
    | [] => some root
    | '[' :: '[' :: rest => do
      let (path, rest) ← key? rest.length rest
      let (above, name) ← splitLast? path
      match rest with
      | ']' :: ']' :: rest =>
        let root ← under (addTable name) above root
        statements fuel path root (← endOfLine? rest)
      | _ => none
    | '[' :: rest => do
      let (path, rest) ← key? rest.length rest
      let (above, name) ← splitLast? path
      match rest with
      | ']' :: rest =>
        let root ← under (openTable name) above root
        statements fuel path root (← endOfLine? rest)
      | _ => none
    | cs => do
      let (path, rest) ← key? cs.length cs
      match rest with
      | '=' :: rest =>
        let (d, rest) ← value? (2 * rest.length + 2) (skipSpace rest)
        let root ← under (addValue d path) current root
        statements fuel current root (← endOfLine? rest)
      | _ => none

end Toml

def ofToml? (s : String) : Option Document :=
  let cs := s.toList
  (Toml.statements (cs.length + 1) [] [] cs).map fun entries => .record (Toml.entryDocuments entries)

end Comprehension.Document
