import Comprehension.Calendar.Scan

/-!
Days of the proleptic Gregorian calendar. A `Date` is a day that exists, in a year of the
supported range.
-/
namespace Comprehension.Calendar

def isLeapYear (year : Int) : Bool :=
  year % 4 = 0 ∧ (year % 100 ≠ 0 ∨ year % 400 = 0)

def daysIn (year : Int) (month : Nat) : Nat :=
  if month = 2 then (if isLeapYear year then 29 else 28)
  else if month = 4 ∨ month = 6 ∨ month = 9 ∨ month = 11 then 30
  else 31

def firstYear : Int := -262143

def lastYear : Int := 262142

/-- Whether the day exists. -/
def IsDay (year : Int) (month day : Nat) : Prop :=
  (firstYear ≤ year ∧ year ≤ lastYear) ∧ (1 ≤ month ∧ month ≤ 12) ∧
    (1 ≤ day ∧ day ≤ daysIn year month)

instance (year : Int) (month day : Nat) : Decidable (IsDay year month day) :=
  inferInstanceAs (Decidable (_ ∧ _))

structure Date where
  year : Int
  month : Nat
  day : Nat
  isDay : IsDay year month day
deriving DecidableEq

namespace Date

def of? (year : Int) (month day : Nat) : Option Date :=
  if h : IsDay year month day then some ⟨year, month, day, h⟩ else none

/-- Years past four digits, and years before zero, carry a sign. -/
def yearText (year : Int) : List Char :=
  if year < 0 then '-' :: padded 4 year.natAbs
  else if 9999 < year then '+' :: padded 4 year.natAbs
  else padded 4 year.natAbs

def text (d : Date) : String :=
  String.ofList (yearText d.year ++ '-' :: padded 2 d.month ++ '-' :: padded 2 d.day)

/-- Reads a day and returns the rest of the text, without the blanks that follow the day. -/
def scan (cs : List Char) : Option (Date × List Char) := do
  let (year, cs) ← signedYear cs
  let (month, cs) ← twoDigits (← mark '-' cs)
  let (day, cs) ← twoDigits (← mark '-' cs)
  return (← of? year month day, Text.trimStart cs)

/-- Reads a whole text as a day. -/
def ofText? (s : String) : Option Date :=
  match scan s.toList with
  | some (date, []) => some date
  | _ => none

end Date

end Comprehension.Calendar
