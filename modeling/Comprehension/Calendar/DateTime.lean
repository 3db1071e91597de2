import Comprehension.Calendar.Date

/-!
Points in time: a day and a time of day to the nanosecond. The second 60 is a leap second.
-/
namespace Comprehension.Calendar

def IsTime (hour minute second nanosecond : Nat) : Prop :=
  hour < 24 ∧ minute < 60 ∧ second ≤ 60 ∧ nanosecond < 1000000000

instance (h m s n : Nat) : Decidable (IsTime h m s n) :=
  inferInstanceAs (Decidable (_ ∧ _))

structure Time where
  hour : Nat
  minute : Nat
  second : Nat
  nanosecond : Nat
  isTime : IsTime hour minute second nanosecond
deriving DecidableEq

namespace Time

def of? (hour minute second nanosecond : Nat) : Option Time :=
  if h : IsTime hour minute second nanosecond then some ⟨hour, minute, second, nanosecond, h⟩
  else none

/-- The fraction of a second in the fewest of 0, 3, 6 or 9 digits that hold it. -/
def fraction (nanosecond : Nat) : List Char :=
  if nanosecond = 0 then []
  else if nanosecond % 1000000 = 0 then '.' :: padded 3 (nanosecond / 1000000)
  else if nanosecond % 1000 = 0 then '.' :: padded 6 (nanosecond / 1000)
  else '.' :: padded 9 nanosecond

def text (t : Time) : List Char :=
  padded 2 t.hour ++ ':' :: padded 2 t.minute ++ ':' :: padded 2 t.second ++ fraction t.nanosecond

/-- The nanoseconds of an optional fraction; digits past the ninth are dropped. -/
def scanFraction : List Char → Option (Nat × List Char)
  | '.' :: cs =>
    match cs.takeWhile Char.isDigit with
    | [] => none
    | digits =>
      let kept := digits.take 9
      some (digitsValue kept * Nat.pow 10 (9 - kept.length), cs.dropWhile Char.isDigit)
  | cs => some (0, cs)

def scan (cs : List Char) : Option (Time × List Char) := do
  let (hour, cs) ← twoDigits cs
  let (minute, cs) ← twoDigits (← mark ':' cs)
  let (second, cs) ← twoDigits (← mark ':' cs)
  let (nanosecond, cs) ← scanFraction cs
  return (← of? hour minute second nanosecond, Text.trimStart cs)

end Time

structure DateTime where
  date : Date
  time : Time
deriving DecidableEq

namespace DateTime

/-- The day, a separator and the time of day. -/
def textWith (separator : Char) (t : DateTime) : String :=
  t.date.text ++ String.ofList (separator :: t.time.text)

def ofText? (s : String) : Option DateTime := do
  let (date, cs) ← Date.scan s.toList
  match cs with
  | 'T' :: cs =>
    match ← Time.scan cs with
    | (time, []) => some ⟨date, time⟩
    | _ => none
  | _ => none

end DateTime

end Comprehension.Calendar
