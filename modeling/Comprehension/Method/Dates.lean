import Comprehension.Method.Registry

/-!
Date arithmetic and the parts of dates. `DATEADD` takes amounts of 32 bits, so an offset in
milliseconds is added as whole days and a rest.
-/
namespace Comprehension.Method.Dates

open Sql (Expr Call)

def millisecondsPerDay : Int := 86400000

def ticksPerMillisecond : Int := 10000

/-- The name of a date part, which is no parameter. -/
def part (name : String) : Expr := .customText name .string

/-- A date moved by an amount of a date part. -/
def dateAdd (unit : String) (amount date : Expr) : Expr :=
  .valueFunction "DATEADD" [part unit, amount, date] date.type

/-- A date moved by a number of milliseconds. -/
def addMilliseconds (date milliseconds : Expr) : Expr :=
  dateAdd "millisecond" (.binaryOf .modulo milliseconds (.int millisecondsPerDay))
    (dateAdd "day" (.binaryOf .divide milliseconds (.int millisecondsPerDay)) date)

/-- Adds a number of units that last `factor` milliseconds each. -/
def addUnits (factor : Int) : Transformer := fun c => do
  let amount ← c.argument 0
  let milliseconds := .convert "BIGINT" (.binaryOf .multiply amount (.int factor)) .int64
  return addMilliseconds (← c.instance?) milliseconds

def addTicks : Transformer := fun c => do
  let amount ← c.argument 0
  return addMilliseconds (← c.instance?) (.binaryOf .divide amount (.int ticksPerMillisecond))

/-- Adds a number of calendar units. -/
def addCalendar (unit : String) : Transformer := fun c => do
  let amount ← c.argument 0
  return dateAdd unit amount (← c.instance?)

def datePart (name : String) : Transformer := fun c => do
  return .valueFunction "DATEPART" [part name, ← c.instance?] .int32

def methods : List (Signature × Transformer) :=
  [(.method "DateTime" "AddDays" ["Double"], addUnits millisecondsPerDay),
   (.method "DateTime" "AddHours" ["Double"], addUnits 3600000),
   (.method "DateTime" "AddMinutes" ["Double"], addUnits 60000),
   (.method "DateTime" "AddSeconds" ["Double"], addUnits 1000),
   (.method "DateTime" "AddMilliseconds" ["Double"], addUnits 1),
   (.method "DateTime" "AddTicks" ["Int64"], addTicks),
   (.method "DateTime" "AddYears" ["Int32"], addCalendar "year"),
   (.method "DateTime" "AddMonths" ["Int32"], addCalendar "month"),
   (.method "DateOnly" "AddYears" ["Int32"], addCalendar "year"),
   (.method "DateOnly" "AddMonths" ["Int32"], addCalendar "month"),
   (.method "DateOnly" "AddDays" ["Int32"], addCalendar "day"),
   (.property "DateTime" "Year", datePart "year"),
   (.property "DateTime" "Month", datePart "month"),
   (.property "DateTime" "Day", datePart "day"),
   (.property "DateTime" "Hour", datePart "hour"),
   (.property "DateTime" "Minute", datePart "minute"),
   (.property "DateTime" "Second", datePart "second"),
   (.property "DateTime" "Millisecond", datePart "millisecond")]

end Comprehension.Method.Dates
