import Comprehension.Text.Blank

/-!
Reading the fields of a date: numbers of a bounded width with blanks allowed between the fields.
Every reader returns what it read and the rest of the text.
-/
namespace Comprehension.Calendar

def digitsValue (digits : List Char) : Nat :=
  digits.foldl (fun n c => 10 * n + (c.toNat - '0'.toNat)) 0

def number (cs : List Char) : Option (Nat × List Char) :=
  match cs.takeWhile Char.isDigit with
  | [] => none
  | digits => some (digitsValue digits, cs.dropWhile Char.isDigit)

/-- A number of at least one digit that takes no more than `width` of them. -/
def boundedNumber (width : Nat) (cs : List Char) : Option (Nat × List Char) :=
  match (cs.take width).takeWhile Char.isDigit with
  | [] => none
  | digits => some (digitsValue digits, cs.drop digits.length)

/-- A field of at most two digits after optional blanks. -/
def twoDigits (cs : List Char) : Option (Nat × List Char) :=
  boundedNumber 2 (Text.trimStart cs)

/-- A year after optional blanks: four digits at most, or any number of them after a sign. -/
def signedYear (cs : List Char) : Option (Int × List Char) :=
  match Text.trimStart cs with
  | '-' :: rest => (number rest).map fun (n, rest) => (-(n : Int), rest)
  | '+' :: rest => (number rest).map fun (n, rest) => ((n : Int), rest)
  | rest => (boundedNumber 4 rest).map fun (n, rest) => ((n : Int), rest)

def mark (c : Char) (cs : List Char) : Option (List Char) :=
  match Text.trimStart cs with
  | x :: rest => if x = c then some rest else none
  | [] => none

def padded (width n : Nat) : List Char :=
  let digits := Nat.toDigits 10 n
  List.replicate (width - digits.length) '0' ++ digits

end Comprehension.Calendar
