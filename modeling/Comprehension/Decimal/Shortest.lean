import Comprehension.Decimal.Double

/-!
The shortest decimal that reads back as a double. The reals that round to `m * 2 ^ q` form an
interval; the result is the point of the coarsest decimal grid that lies in it, the nearest one
where there are two.
-/
namespace Comprehension.Decimal

/-- A ratio of natural numbers, compared by cross multiplication. -/
structure Ratio where
  num : Nat
  den : Nat

namespace Ratio

def lt (a b : Ratio) : Bool := a.num * b.den < b.num * a.den

def le (a b : Ratio) : Bool := a.num * b.den ≤ b.num * a.den

def scaled (n : Nat) (q : Int) : Ratio :=
  if 0 ≤ q then ⟨n * Nat.pow 2 q.toNat, 1⟩ else ⟨n, Nat.pow 2 (-q).toNat⟩

def decimal (n : Nat) (p : Int) : Ratio :=
  if 0 ≤ p then ⟨n * Nat.pow 10 p.toNat, 1⟩ else ⟨n, Nat.pow 10 (-p).toNat⟩

/-- The largest `n` with `n * 10 ^ p` at most the ratio. -/
def floorAt (a : Ratio) (p : Int) : Nat :=
  if 0 ≤ p then a.num / (a.den * Nat.pow 10 p.toNat)
  else a.num * Nat.pow 10 (-p).toNat / a.den

end Ratio

/-- A double's value and the ends of the interval that rounds to it. -/
structure Interval where
  low : Ratio
  value : Ratio
  high : Ratio
  closed : Bool

namespace Interval

/-- The interval of `m * 2 ^ q`. Its lower half is narrower just above a power of two, and its
ends belong to it when `m` is even. -/
def ofParts (m : Nat) (q : Int) : Interval :=
  let below := if m = Nat.pow 2 52 ∧ -1074 < q then 1 else 2
  { low := .scaled (4 * m - below) (q - 2)
    value := .scaled (4 * m) (q - 2)
    high := .scaled (4 * m + 2) (q - 2)
    closed := m % 2 = 0 }

def contains (i : Interval) (x : Ratio) : Bool :=
  if i.closed then i.low.le x && x.le i.high else i.low.lt x && x.lt i.high

/-- The point of the grid `10 ^ p` in the interval that lies nearest to the value; of two equally
near points the upper one. -/
def nearestOn (i : Interval) (p : Int) : Option Nat :=
  let floor := i.value.floorAt p
  let lower := Ratio.decimal floor p
  let upper := Ratio.decimal (floor + 1) p
  let middle := Ratio.decimal (10 * floor + 5) (p - 1)
  match i.contains lower, i.contains upper with
  | true, true => some (if i.value.lt middle then floor else floor + 1)
  | true, false => some floor
  | false, true => some (floor + 1)
  | false, false => none

def search (i : Interval) : Nat → Int → Nat × Int
  | 0, p => (i.value.floorAt p, p)
  | fuel + 1, p =>
    match i.nearestOn p with
    | some n => (n, p)
    | none => search i fuel (p - 1)

end Interval

def normalize : Nat → Nat → Int → Nat × Int
  | 0, n, p => (n, p)
  | fuel + 1, n, p =>
    if n ≠ 0 ∧ n % 10 = 0 then normalize fuel (n / 10) (p + 1) else (n, p)

/-- The power of ten of the leading digit, for values below one. -/
def leadingBelowOne (value : Ratio) : Nat → Int → Int
  | 0, p => p
  | fuel + 1, p => if value.floorAt p = 0 then leadingBelowOne value fuel (p - 1) else p

/-- The shortest `(digits, exponent)` with value `digits * 10 ^ exponent` that reads back as the
finite magnitude. -/
def shortest (magnitude : Nat) : Nat × Int :=
  if magnitude = 0 then (0, 0)
  else
    let (m, q) := Double.parts magnitude
    let interval := Interval.ofParts m q
    let whole := interval.value.floorAt 0
    let leading : Int :=
      if whole = 0 then leadingBelowOne interval.value 400 (-1)
      else (Double.digitCount whole : Int) - 1
    let (n, p) := interval.search 20 leading
    normalize 20 n p

end Comprehension.Decimal
