import Comprehension.Proofs.StringMethods

/-!
Offsets added to dates. `DATEADD` takes amounts of 32 bits, so an offset in milliseconds is added as
whole days and then as what is left of it. Division drops the fraction, so both amounts of an offset
into the past are negative; together they are still the whole offset.
-/
namespace Comprehension.Sql

structure Timeline where
  /-- The date that is so many milliseconds later. -/
  moved : Int → Datum → Datum
  moved_moved : ∀ m n d, moved n (moved m d) = moved (m + n) d

/-- Division, remainder and conversion of whole numbers, and `DATEADD` on a line of dates. The name
of a date part stands for itself. -/
def Interpretation.withDates (I : Interpretation) (line : Timeline) : Interpretation :=
  { I with
    apply := fun
      | .binary .divide, [.value (.int a), .value (.int b)] => .int (a.tdiv b)
      | .binary .modulo, [.value (.int a), .value (.int b)] => .int (a.tmod b)
      | .convert "BIGINT", [.value (.int a)] => .int a
      | .function "DATEADD", [.value (.string "day"), .value (.int n), d] =>
        line.moved (n * (24 * 60 * 60 * 1000)) d
      | .function "DATEADD", [.value (.string "millisecond"), .value (.int n), d] => line.moved n d
      | operation, data => I.apply operation data
    leaf := fun
      | .customText text _ => .value (.string text)
      | e => I.leaf e }

end Comprehension.Sql

namespace Comprehension.Method.Dates

open Sql

/-- What a method adds to a date for an amount, in milliseconds. A tick is a tenth of a
microsecond. -/
def offsets : List (Signature × (Int → Int)) :=
  [(.method "DateTime" "AddDays" ["Double"], fun a => a * (24 * 60 * 60 * 1000)),
   (.method "DateTime" "AddHours" ["Double"], fun a => a * (60 * 60 * 1000)),
   (.method "DateTime" "AddMinutes" ["Double"], fun a => a * (60 * 1000)),
   (.method "DateTime" "AddSeconds" ["Double"], fun a => a * 1000),
   (.method "DateTime" "AddMilliseconds" ["Double"], fun a => a),
   (.method "DateTime" "AddTicks" ["Int64"], fun a => a.tdiv 10000)]

/-- Amounts that `DATEADD` takes. -/
def IsInt32 (n : Int) : Prop := -2147483648 ≤ n ∧ n ≤ 2147483647

/-- No method on dates is listed twice. -/
theorem get?_of_mem {signature : Signature} {transformer : Transformer}
    (listed : (signature, transformer) ∈ methods) :
    Registry.defaults.get? signature = some transformer :=
  Registry.get?_defaults_of_mem (Strings.methods ++ Pattern.methods)
    (Conversion.methods ++ FullText.methods ++ Equality.methods) (by simp [Registry.builtIn])
    (by decide +kernel) (by decide +kernel) listed

section Values

variable {I : Interpretation} {line : Timeline} {items : Items} {e e' date amount : Expr}
  {m n : Int}

theorem value_divide (left : e.value (I.withDates line) items = .int m)
    (right : e'.value (I.withDates line) items = .int n) :
    (Expr.binaryOf .divide e e').value (I.withDates line) items = .int (m.tdiv n) := by
  rw [Expr.value_binaryOf, left, right]
  rfl

theorem value_modulo (left : e.value (I.withDates line) items = .int m)
    (right : e'.value (I.withDates line) items = .int n) :
    (Expr.binaryOf .modulo e e').value (I.withDates line) items = .int (m.tmod n) := by
  rw [Expr.value_binaryOf, left, right]
  rfl

/-- The product that is converted is the number of milliseconds. -/
theorem value_product (h : amount.value (I.withDates line) items = .int m) (factor : Int) :
    (Expr.convert "BIGINT" (.binaryOf .multiply amount (.int factor)) .int64).value
      (I.withDates line) items = .int (m * factor) := by
  show (I.withDates line).apply (.convert "BIGINT")
    [(Expr.binaryOf .multiply amount (.int factor)).value (I.withDates line) items] = _
  rw [Expr.value_binaryOf, h]
  rfl

theorem value_dateAdd_day (h : amount.value (I.withDates line) items = .int n) :
    (dateAdd "day" amount date).value (I.withDates line) items =
      line.moved (n * (24 * 60 * 60 * 1000)) (date.value (I.withDates line) items) := by
  simp only [dateAdd, Expr.value_valueFunction, List.map_cons, List.map_nil, h]
  rfl

theorem value_dateAdd_millisecond (h : amount.value (I.withDates line) items = .int n) :
    (dateAdd "millisecond" amount date).value (I.withDates line) items =
      line.moved n (date.value (I.withDates line) items) := by
  simp only [dateAdd, Expr.value_valueFunction, List.map_cons, List.map_nil, h]
  rfl

/-- Whole days and the rest of them are all the milliseconds. -/
theorem value_addMilliseconds {milliseconds : Expr}
    (h : milliseconds.value (I.withDates line) items = .int n) :
    (addMilliseconds date milliseconds).value (I.withDates line) items =
      line.moved n (date.value (I.withDates line) items) := by
  have perDay : (Expr.int millisecondsPerDay).value (I.withDates line) items =
      .int millisecondsPerDay := rfl
  rw [addMilliseconds, value_dateAdd_millisecond (value_modulo h perDay),
    value_dateAdd_day (value_divide h perDay), line.moved_moved]
  exact congrArg (line.moved · _) (Int.tdiv_mul_add_tmod n millisecondsPerDay)

end Values

section Amounts

theorem natAbs_rest_lt (n : Int) : (n.tmod millisecondsPerDay).natAbs < 86400000 := by
  rw [Int.natAbs_tmod]
  exact Nat.mod_lt _ (by decide)

theorem isInt32_rest (n : Int) : IsInt32 (n.tmod millisecondsPerDay) := by
  have := natAbs_rest_lt n
  constructor <;> omega

theorem isInt32_days {n : Int} (h : n.natAbs ≤ 10000 * 366 * (24 * 60 * 60 * 1000)) :
    IsInt32 (n.tdiv millisecondsPerDay) := by
  have days : (n.tdiv millisecondsPerDay).natAbs ≤ 10000 * 366 := by
    rw [Int.natAbs_tdiv]
    exact Nat.div_le_of_le_mul (by rw [Nat.mul_comm]; exact h)
  constructor <;> omega

end Amounts

section Calls

variable {I : Interpretation} {line : Timeline} {items : Items} {signature : Signature}
  {amount : Expr} {a : Int}

theorem transform_of_mem (transformer : Transformer) {e : Expr} {c : Call}
    (listed : (c.signature, transformer) ∈ methods) (ok : transformer c = .ok e) :
    Registry.defaults.transform c = .ok e := by
  rw [Registry.transform, get?_of_mem listed]
  exact ok

/-- Each of the methods adds a number of milliseconds that is the offset. -/
theorem exists_milliseconds {offset : Int → Int} (listed : (signature, offset) ∈ offsets)
    (date : Expr) (others : List Expr) (type : ValueType) (source : String)
    (h : amount.value (I.withDates line) items = .int a) :
    ∃ milliseconds : Expr,
      Registry.defaults.transform ⟨signature, some date, amount :: others, type, source⟩ =
        .ok (addMilliseconds date milliseconds) ∧
      milliseconds.value (I.withDates line) items = .int (offset a) := by
  have units (factor : Int) (unit : (signature, addUnits factor) ∈ methods)
      (same : offset = fun a => a * factor) : ∃ milliseconds : Expr,
      Registry.defaults.transform ⟨signature, some date, amount :: others, type, source⟩ =
        .ok (addMilliseconds date milliseconds) ∧
      milliseconds.value (I.withDates line) items = .int (offset a) :=
    ⟨_, transform_of_mem _ unit rfl, same ▸ value_product h factor⟩
  simp only [offsets, List.mem_cons, Prod.mk.injEq, List.not_mem_nil, or_false] at listed
  rcases listed with ⟨rfl, rfl⟩ | ⟨rfl, rfl⟩ | ⟨rfl, rfl⟩ | ⟨rfl, rfl⟩ | ⟨rfl, rfl⟩ | ⟨rfl, rfl⟩
  · exact units millisecondsPerDay (by simp [methods]) rfl
  · exact units 3600000 (by simp [methods]) rfl
  · exact units 60000 (by simp [methods]) rfl
  · exact units 1000 (by simp [methods]) rfl
  · exact units 1 (by simp [methods]) (funext fun a => (Int.mul_one a).symm)
  · refine ⟨_, transform_of_mem addTicks (by simp [methods]) rfl, ?_⟩
    exact value_divide h rfl

end Calls

/-- A call adds exactly its offset, for amounts of either sign. It adds whole days first and then
less than a day, so that the second amount always has 32 bits, and the first one for all offsets of up
to ten thousand years. -/
theorem offset_added_in_two_steps (I : Interpretation) (line : Timeline) (items : Items)
    (signature : Signature) (offset : Int → Int) (listed : (signature, offset) ∈ offsets)
    (date amount : Expr) (others : List Expr) (type : ValueType) (source : String) (a : Int)
    (h : amount.value (I.withDates line) items = .int a) :
    ∃ (days rest : Expr) (m n : Int),
      Registry.defaults.transform ⟨signature, some date, amount :: others, type, source⟩ =
        .ok (dateAdd "millisecond" rest (dateAdd "day" days date)) ∧
      (dateAdd "millisecond" rest (dateAdd "day" days date)).value (I.withDates line) items =
        line.moved (offset a) (date.value (I.withDates line) items) ∧
      days.value (I.withDates line) items = .int m ∧
      rest.value (I.withDates line) items = .int n ∧
      n.natAbs < 86400000 ∧ IsInt32 n ∧
      ((offset a).natAbs ≤ 10000 * 366 * (24 * 60 * 60 * 1000) → IsInt32 m) := by
  obtain ⟨milliseconds, built, total⟩ := exists_milliseconds listed date others type source h
  exact ⟨_, _, _, _, built, value_addMilliseconds total, value_divide total rfl,
    value_modulo total rfl, natAbs_rest_lt _, isInt32_rest _, isInt32_days⟩

def countedDates : Timeline where
  moved n d := match d with
    | .value (.int t) => .int (t + n)
    | d => d
  moved_moved m n d := by
    cases d with
    | value v => cases v <;> simp [Datum.int, Int.add_assoc]
    | record fields => rfl

/-- Thirty hours are taken off a date, as a day and then as six hours. -/
theorem thirtyHours_taken_off :
    let date := Expr.constant (.int 1700000000000) .dateTime
    let amount := Expr.constant (.int (-30)) .double
    (Signature.method "DateTime" "AddHours" ["Double"], fun a => a * (60 * 60 * 1000)) ∈ offsets ∧
    amount.value (noTables.withDates countedDates) noItems = .int (-30) ∧
    ∃ (days rest : Expr) (m n : Int),
      Registry.defaults.transform
          ⟨.method "DateTime" "AddHours" ["Double"], some date, [amount], .dateTime,
            "d.AddHours(-30)"⟩ =
        .ok (dateAdd "millisecond" rest (dateAdd "day" days date)) ∧
      (dateAdd "millisecond" rest (dateAdd "day" days date)).value
          (noTables.withDates countedDates) noItems = .int (1700000000000 - 108000000) ∧
      days.value (noTables.withDates countedDates) noItems = .int m ∧ IsInt32 m ∧
      rest.value (noTables.withDates countedDates) noItems = .int n ∧ IsInt32 n := by
  intro date amount
  have listed : (Signature.method "DateTime" "AddHours" ["Double"],
      fun a : Int => a * (60 * 60 * 1000)) ∈ offsets := .tail _ (.head _)
  obtain ⟨days, rest, m, n, built, value, day, left, -, small, fits⟩ :=
    offset_added_in_two_steps noTables countedDates noItems _ _ listed date amount [] .dateTime
      "d.AddHours(-30)" (-30) rfl
  exact ⟨listed, rfl, days, rest, m, n, built, value, day, fits (by decide), left, small⟩

end Comprehension.Method.Dates
