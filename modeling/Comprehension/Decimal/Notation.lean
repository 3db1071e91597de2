import Comprehension.Decimal.Shortest

/-!
How numbers are written: positional for people, and with an exponent for very large and very
small numbers in documents.
-/
namespace Comprehension.Decimal

def zeros (n : Nat) : List Char := List.replicate n '0'

/-- `digits * 10 ^ exponent` without an exponent and without a fraction of zero. -/
def positional (digits : List Char) (exponent : Int) : List Char :=
  if 0 ≤ exponent then
    if digits = ['0'] then digits else digits ++ zeros exponent.toNat
  else
    let places := (-exponent).toNat
    if places < digits.length then
      digits.take (digits.length - places) ++ '.' :: digits.drop (digits.length - places)
    else '0' :: '.' :: zeros (places - digits.length) ++ digits

namespace Double

def signed (d : Double) (text : List Char) : String :=
  String.ofList (if d.isNegative then '-' :: text else text)

/-- The shortest positional text that reads back. -/
def text (d : Double) : String :=
  if infinityBits < d.magnitude then "NaN"
  else if d.magnitude = infinityBits then d.signed ['i', 'n', 'f']
  else
    let (n, p) := shortest d.magnitude
    d.signed (positional (Nat.toDigits 10 n) p)

/-- Document numbers keep a fraction, so that they read back as doubles, and turn to an exponent
below 1e-5 and from 1e16 on. -/
def documentText (d : Double) : String :=
  let (n, p) := shortest d.magnitude
  let digits := Nat.toDigits 10 n
  let leading : Int := digits.length + p
  if d.magnitude = 0 then d.signed ['0', '.', '0']
  else if 0 ≤ p ∧ leading ≤ 16 then d.signed (positional digits p ++ ['.', '0'])
  else if -5 < leading ∧ leading ≤ 16 then d.signed (positional digits p)
  else
    let exponent := (toString (leading - 1)).toList
    match digits with
    | [digit] => d.signed (digit :: 'e' :: exponent)
    | digit :: rest => d.signed (digit :: '.' :: rest ++ 'e' :: exponent)
    | [] => d.signed []

end Double

end Comprehension.Decimal
