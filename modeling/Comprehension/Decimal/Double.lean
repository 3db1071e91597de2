/-!
Binary floating-point numbers of 64 bits, kept as their bits: a sign, eleven exponent bits and
fifty-two fraction bits. Reading a decimal rounds to the nearest double, a half to the even one.
-/
namespace Comprehension.Decimal

structure Double where
  bits : UInt64
deriving DecidableEq, Repr

namespace Double

def isNegative (d : Double) : Bool := Nat.pow 2 63 ≤ d.bits.toNat

def magnitude (d : Double) : Nat := d.bits.toNat % Nat.pow 2 63

/-- The bits of positive infinity; larger magnitudes are no numbers. -/
def infinityBits : Nat := 0x7FF0000000000000

/-- A finite magnitude as `m * 2 ^ q`. -/
def parts (magnitude : Nat) : Nat × Int :=
  let exponent : Nat := magnitude / Nat.pow 2 52
  let fraction : Nat := magnitude % Nat.pow 2 52
  if exponent = 0 then (fraction, -1074)
  else (fraction + Nat.pow 2 52, (exponent : Int) - 1075)

def ofMagnitude (negative : Bool) (magnitude : Nat) : Double :=
  ⟨UInt64.ofNat (if negative then Nat.pow 2 63 + magnitude else magnitude)⟩

/-- The quotient rounded to the nearest natural number, a half to the even one. -/
def roundDiv (num den : Nat) : Nat :=
  let quotient := num / den
  let twice := 2 * (num % den)
  if twice < den then quotient
  else if den < twice then quotient + 1
  else quotient + quotient % 2

/-- The magnitude bits nearest to a positive ratio. The step is the spacing of doubles there, at
least the spacing of the subnormal ones. -/
def roundRatio (num den : Nat) : Nat :=
  let estimate : Int := (Nat.log2 num : Int) - Nat.log2 den - 52
  -- The estimate is exact or one too large.
  let fits : Bool :=
    if 0 ≤ estimate then den * Nat.pow 2 (estimate.toNat + 52) ≤ num
    else den * Nat.pow 2 52 ≤ num * Nat.pow 2 (-estimate).toNat
  let step := max (if fits then estimate else estimate - 1) (-1074)
  let count :=
    if 0 ≤ step then roundDiv num (den * Nat.pow 2 step.toNat)
    else roundDiv (num * Nat.pow 2 (-step).toNat) den
  (step + 1074).toNat * Nat.pow 2 52 + count

def digitCount (n : Nat) : Nat := (Nat.toDigits 10 n).length

/-- The double nearest to `m * 10 ^ e`, or `none` past the largest one. -/
def ofDecimal? (negative : Bool) (m : Nat) (e : Int) : Option Double :=
  if m = 0 then some (ofMagnitude negative 0)
  else if 400 < (digitCount m : Int) + e then none
  else if (digitCount m : Int) + e < -400 then some (ofMagnitude negative 0)
  else
    let magnitude :=
      if 0 ≤ e then roundRatio (m * Nat.pow 10 e.toNat) 1
      else roundRatio m (Nat.pow 10 (-e).toNat)
    if magnitude < infinityBits then some (ofMagnitude negative magnitude) else none

def hex (d : Double) : String :=
  let digits := Nat.toDigits 16 d.bits.toNat
  String.ofList (List.replicate (16 - digits.length) '0' ++ digits)

end Double

end Comprehension.Decimal
