import Comprehension.Proofs.Evaluation
import Comprehension.Proofs.LiteralSearch
import Mathlib.Data.List.DropRight

/-!
String methods on values. The functions of the dialect count characters from one, `LEN` overlooks
trailing blanks, and `STUFF` has no result behind the last character; queries count from zero. What
the methods stand for bridges the two, also for empty texts and at the ends of a text.
-/
namespace Comprehension.Sql

namespace Datum

def text (cs : List Char) : Datum := value (.string (String.ofList cs))

/-- The characters of a text. A single character is a text, too. -/
def chars? : Datum → Option (List Char)
  | value (.string s) => some s.toList
  | value (.char c) => some [c]
  | _ => none

def int? : Datum → Option Int
  | value (.int n) => some n
  | _ => none

/-- What has no result is null. -/
def orNull (d : Option Datum) : Datum := d.getD null

@[simp] theorem chars?_text (cs : List Char) : (text cs).chars? = some cs := by
  simp [text, chars?]

@[simp] theorem int?_int (n : Int) : (int n).int? = some n := rfl

theorem eq_int {d : Datum} {n : Int} (h : d.int? = some n) : d = int n := by
  cases d with
  | value v => cases v <;> simp_all [int?, int]
  | record fields => cases h

end Datum

/-! The string functions of the dialect. The first character is at place one. -/
namespace TextFunction

/-- Trailing blanks do not count. -/
def len (cs : List Char) : Nat := (cs.rdropWhile (· = ' ')).length

/-- The characters from place `start` on, `length` of them. A negative length is an error. -/
def substring (cs : List Char) (start length : Int) : Option (List Char) :=
  if 0 ≤ length then some ((cs.take (start + length - 1).toNat).drop (start - 1).toNat) else none

/-- Puts a text in the place of `length` characters. There is no result if the first of them is not
a character of the text. -/
def stuff (cs : List Char) (start length : Int) (replacement : List Char) : Option (List Char) :=
  if 1 ≤ start ∧ start ≤ cs.length ∧ 0 ≤ length then
    some (cs.take (start - 1).toNat ++ replacement ++ cs.drop (start - 1 + length).toNat)
  else none

/-- The first place, from `start` on, that a text is found at, or zero. An empty text is not
found. -/
def charIndex (searched cs : List Char) (start : Int) : Nat :=
  if searched = [] then 0
  else
    match (List.range cs.length).find? fun (p : Nat) =>
        start ≤ p + 1 ∧ searched.isPrefixOf (cs.drop p) with
    | some p => p + 1
    | none => 0

end TextFunction

/-- The functions on texts are those of the dialect. They are null where they have no result, as
for an argument that is null. -/
def Interpretation.withTexts (I : Interpretation) : Interpretation :=
  { I with
    apply := fun
      | .binary .concat, [s, t] => .orNull do return .text ((← s.chars?) ++ (← t.chars?))
      | .function "LEN", [s] => .orNull do return .int (TextFunction.len (← s.chars?))
      | .function "SUBSTRING", [s, start, length] => .orNull do
        return .text (← TextFunction.substring (← s.chars?) (← start.int?) (← length.int?))
      | .function "STUFF", [s, start, length, t] => .orNull do
        return .text
          (← TextFunction.stuff (← s.chars?) (← start.int?) (← length.int?) (← t.chars?))
      | .function "CHARINDEX", [t, s] => .orNull do
        return .int (TextFunction.charIndex (← t.chars?) (← s.chars?) 1)
      | .function "CHARINDEX", [t, s, start] => .orNull do
        return .int (TextFunction.charIndex (← t.chars?) (← s.chars?) (← start.int?))
      | operation, data => I.apply operation data }

/-! Texts found in texts, counted from zero. -/

/-- A text stands in another one behind so many characters. -/
def OccursAt (searched cs : List Char) (p : Nat) : Prop :=
  ∃ before after, cs = before ++ searched ++ after ∧ before.length = p

/-- The first place, from `start` on, that a text stands at, or `-1`. -/
def IsFirstFrom (start : Nat) (searched cs : List Char) (r : Int) : Prop :=
  (∃ p : Nat, r = p ∧ start ≤ p ∧ OccursAt searched cs p ∧
    ∀ q, start ≤ q → OccursAt searched cs q → p ≤ q) ∨
  (r = -1 ∧ ∀ p, start ≤ p → ¬ OccursAt searched cs p)

theorem occursAt_iff {searched cs : List Char} {p : Nat} :
    OccursAt searched cs p ↔ p ≤ cs.length ∧ searched <+: cs.drop p := by
  constructor
  · rintro ⟨before, after, rfl, rfl⟩
    refine ⟨by simp, after, ?_⟩
    rw [List.append_assoc, List.drop_left]
  · rintro ⟨inside, after, rest⟩
    refine ⟨cs.take p, after, ?_, by simpa using inside⟩
    rw [List.append_assoc, rest, List.take_append_drop]

theorem occursAt_nil {cs : List Char} {p : Nat} : OccursAt [] cs p ↔ p ≤ cs.length := by
  simp [occursAt_iff]

theorem OccursAt.lt_length {searched cs : List Char} {p : Nat} (h : OccursAt searched cs p)
    (nonempty : searched ≠ []) : p < cs.length := by
  obtain ⟨before, after, rfl, rfl⟩ := h
  have := List.length_pos_iff.mpr nonempty
  simp only [List.length_append]
  omega

/-- A text that stands where the search starts is found there. -/
theorem isFirstFrom_start {searched cs : List Char} {start : Nat} (h : OccursAt searched cs start) :
    IsFirstFrom start searched cs start :=
  .inl ⟨start, rfl, le_rfl, h, fun _ from_start _ => from_start⟩

theorem IsFirstFrom.eq_start {searched cs : List Char} {start : Nat} {r : Int}
    (h : IsFirstFrom start searched cs r) (occurs : OccursAt searched cs start) : r = start := by
  rcases h with ⟨p, rfl, behind, -, first⟩ | ⟨-, nowhere⟩
  · have := first start le_rfl occurs
    omega
  · exact absurd occurs (nowhere start le_rfl)

namespace TextFunction

/-- The mark keeps the blanks before it. -/
theorem len_append_mark (cs : List Char) : len (cs ++ ['#']) = cs.length + 1 := by
  simp [len]

theorem substring_eq {cs : List Char} {i n : Nat} :
    substring cs (i + 1) n = some ((cs.drop i).take n) := by
  have places : ((i : Int) + 1 + n - 1).toNat = i + n := by omega
  have first : ((i : Int) + 1 - 1).toNat = i := by omega
  rw [substring, if_pos (by omega), places, first, List.take_drop]

theorem stuff_eq {cs : List Char} {i n : Nat} (inside : i < cs.length) (replacement : List Char) :
    stuff cs (i + 1) n replacement = some (cs.take i ++ replacement ++ cs.drop (i + n)) := by
  have before : ((i : Int) + 1 - 1).toNat = i := by omega
  have behind : ((i : Int) + 1 - 1 + n).toNat = i + n := by omega
  rw [stuff, if_pos (by omega), before, behind]

/-- `CHARINDEX` finds the first occurrence, one further on. -/
theorem isFirstFrom_charIndex {searched : List Char} (nonempty : searched ≠ []) (cs : List Char)
    (start : Nat) : IsFirstFrom start searched cs (charIndex searched cs (start + 1) - 1) := by
  have test (p : Nat) (inside : p ≤ cs.length) :
      decide ((start : Int) + 1 ≤ p + 1 ∧ searched.isPrefixOf (cs.drop p) = true) = true ↔
        start ≤ p ∧ OccursAt searched cs p := by
    rw [decide_eq_true_iff, List.isPrefixOf_iff_prefix, occursAt_iff]
    exact and_congr (by omega) (and_iff_right inside).symm
  rw [charIndex, if_neg nonempty]
  cases found : (List.range cs.length).find? fun (p : Nat) =>
      start + 1 ≤ (p : Int) + 1 ∧ searched.isPrefixOf (cs.drop p) with
  | some p =>
    obtain ⟨here, inside, earlier⟩ := List.find?_range_eq_some.mp found
    have inside : p < cs.length := List.mem_range.mp inside
    obtain ⟨behind, occurs⟩ := (test p inside.le).mp here
    refine .inl ⟨p, by simp, behind, occurs, fun q from_start occurs' => ?_⟩
    by_contra before
    have missed := earlier q (by omega)
    rw [(test q (by omega)).mpr ⟨from_start, occurs'⟩] at missed
    cases missed
  | none =>
    refine .inr ⟨by simp, fun p from_start occurs => ?_⟩
    have inside := occurs.lt_length nonempty
    have missed := List.find?_range_eq_none.mp found p inside
    rw [(test p inside.le).mpr ⟨from_start, occurs⟩] at missed
    cases missed

end TextFunction

namespace Interpretation

variable {I : Interpretation} {d d' d₁ d₂ : Datum} {s t : List Char} {m n : Int}

theorem binary_concat (I : Interpretation) (d d' : Datum) :
    I.binary .concat d d' = I.apply (.binary .concat) [d, d'] := by
  unfold binary
  split <;> rfl

theorem concat_eq (hs : d.chars? = some s) (ht : d'.chars? = some t) :
    I.withTexts.apply (.binary .concat) [d, d'] = .text (s ++ t) := by
  show Datum.orNull (do return .text ((← d.chars?) ++ (← d'.chars?))) = _
  rw [hs, ht]
  rfl

theorem len_eq (hs : d.chars? = some s) :
    I.withTexts.apply (.function "LEN") [d] = .int (TextFunction.len s) := by
  show Datum.orNull (do return .int (TextFunction.len (← d.chars?))) = _
  rw [hs]
  rfl

theorem substring_eq (hs : d.chars? = some s) (hm : d₁.int? = some m) (hn : d₂.int? = some n) :
    I.withTexts.apply (.function "SUBSTRING") [d, d₁, d₂] =
      .orNull ((TextFunction.substring s m n).map .text) := by
  show Datum.orNull (do
    return .text (← TextFunction.substring (← d.chars?) (← d₁.int?) (← d₂.int?))) = _
  rw [hs, hm, hn, Option.map_eq_bind]
  rfl

theorem stuff_eq (hs : d.chars? = some s) (hm : d₁.int? = some m) (hn : d₂.int? = some n)
    (ht : d'.chars? = some t) :
    I.withTexts.apply (.function "STUFF") [d, d₁, d₂, d'] =
      .orNull ((TextFunction.stuff s m n t).map .text) := by
  show Datum.orNull (do
    return .text (← TextFunction.stuff (← d.chars?) (← d₁.int?) (← d₂.int?) (← d'.chars?))) = _
  rw [hs, hm, hn, ht, Option.map_eq_bind]
  rfl

theorem charIndex_eq (ht : d'.chars? = some t) (hs : d.chars? = some s) :
    I.withTexts.apply (.function "CHARINDEX") [d', d] = .int (TextFunction.charIndex t s 1) := by
  show Datum.orNull (do return .int (TextFunction.charIndex (← d'.chars?) (← d.chars?) 1)) = _
  rw [hs, ht]
  rfl

theorem charIndex_from_eq (ht : d'.chars? = some t) (hs : d.chars? = some s)
    (hm : d₁.int? = some m) :
    I.withTexts.apply (.function "CHARINDEX") [d', d, d₁] =
      .int (TextFunction.charIndex t s m) := by
  show Datum.orNull (do
    return .int (TextFunction.charIndex (← d'.chars?) (← d.chars?) (← d₁.int?))) = _
  rw [hs, ht, hm]
  rfl

end Interpretation

namespace Expr

/-- The value is a text. -/
def IsText (I : Interpretation) (items : Items) (e : Expr) (cs : List Char) : Prop :=
  (e.value I.withTexts items).chars? = some cs

/-- The value is a whole number. -/
def IsInt (I : Interpretation) (items : Items) (e : Expr) (n : Int) : Prop :=
  (e.value I.withTexts items).int? = some n

variable {I : Interpretation} {items : Items} {e e' test : Expr} {m n : Int} {s t : List Char}

theorem value_binaryOf (J : Interpretation) (op : BinaryOp) :
    (binaryOf op e e').value J items = J.binary op (e.value J items) (e'.value J items) := rfl

theorem value_valueFunction (J : Interpretation) (name : String) (args : List Expr)
    (type : ValueType) : (valueFunction name args type).value J items =
      J.apply (.function name) (args.map fun e => e.value J items) := by
  show J.apply (.function name) (argumentValues J args items) = _
  congr 1
  induction args with
  | nil => rfl
  | cons e rest ih => exact congrArg _ ih

theorem value_caseWhen (J : Interpretation) :
    (caseWhen test e e').value J items =
      ((if (test.value J items).isTrue then some (e.value J items) else none).getD
        (e'.value J items)) := rfl

theorem isText_of_value (h : e.value I.withTexts items = .text s) : e.IsText I items s := by
  rw [IsText, h, Datum.chars?_text]

theorem isText_text (s : String) : (text s).IsText I items s.toList := rfl

theorem isInt_int (n : Int) : (int n).IsInt I items n := rfl

theorem IsInt.value (h : e.IsInt I items n) : e.value I.withTexts items = .int n :=
  Datum.eq_int h

theorem IsInt.value_binaryOf (op : BinaryOp) (left : e.IsInt I items m)
    (right : e'.IsInt I items n) :
    (binaryOf op e e').value I.withTexts items = I.withTexts.binary op (.int m) (.int n) := by
  rw [Expr.value_binaryOf, left.value, right.value]

theorem IsInt.value_equal (left : e.IsInt I items m) (right : e'.IsInt I items n) :
    (e.equal e').value I.withTexts items = .value (.bool (m = n)) :=
  left.value_binaryOf .equal right

theorem IsInt.value_lessThanOrEqual (left : e.IsInt I items m) (right : e'.IsInt I items n) :
    (binaryOf .lessThanOrEqual e e').value I.withTexts items = .value (.bool (m ≤ n)) :=
  left.value_binaryOf .lessThanOrEqual right

theorem IsInt.add (left : e.IsInt I items m) (right : e'.IsInt I items n) :
    (e.add e').IsInt I items (m + n) := by
  rw [IsInt, Expr.add, left.value_binaryOf .add right]
  rfl

theorem IsInt.subtract (left : e.IsInt I items m) (right : e'.IsInt I items n) :
    (e.subtract e').IsInt I items (m - n) := by
  rw [IsInt, Expr.subtract, left.value_binaryOf .subtract right]
  rfl

theorem value_concat (left : e.IsText I items s) (right : e'.IsText I items t) :
    (e.concat e').value I.withTexts items = .text (s ++ t) := by
  rw [concat, value_binaryOf, Interpretation.binary_concat, Interpretation.concat_eq left right]

theorem value_and {p q : Bool} (left : e.value I.withTexts items = .value (.bool p))
    (right : e'.value I.withTexts items = .value (.bool q)) :
    (e.and e').value I.withTexts items = .value (.bool (p && q)) := by
  show Datum.ofTruth (LogicalOp.and.truth (e.value I.withTexts items).truth
    (e'.value I.withTexts items).truth) = _
  rw [left, right]
  cases p <;> cases q <;> rfl

theorem value_caseWhen_true (h : test.value I.withTexts items = .value (.bool true)) :
    (caseWhen test e e').value I.withTexts items = e.value I.withTexts items := by
  rw [value_caseWhen, h]
  rfl

theorem value_caseWhen_false (h : test.value I.withTexts items = .value (.bool false)) :
    (caseWhen test e e').value I.withTexts items = e'.value I.withTexts items := by
  rw [value_caseWhen, h]
  rfl

end Expr

end Comprehension.Sql

namespace Comprehension.Method

open Sql

/-- What a call stands for under the built-in methods has a value. -/
def EvaluatesTo (I : Interpretation) (items : Items) (c : Call) (d : Datum) : Prop :=
  ∃ e, Registry.defaults.transform c = .ok e ∧ e.value I.withTexts items = d

/-- A database without rows. -/
def noTables : Interpretation :=
  { table := fun _ => [], apply := fun _ _ => .null, leaf := fun _ => .null
    le := fun _ _ => false }

def noItems : Items := fun _ => .null

namespace Strings

variable {I : Interpretation} {items : Items} {c : Call} {d : Datum}
  {e text value start count index : Expr} {v w : List Char} {i n : Nat}

/-- No string method is listed twice, so each is what its signature stands for. -/
theorem get?_of_mem {signature : Signature} {transformer : Transformer}
    (listed : (signature, transformer) ∈ methods) :
    Registry.defaults.get? signature = some transformer :=
  Registry.get?_defaults_of_mem []
    (Pattern.methods ++ Dates.methods ++ Conversion.methods ++ FullText.methods ++ Equality.methods)
    (by simp [Registry.builtIn]) (by decide +kernel) (by decide +kernel) listed

theorem evaluatesTo (transformer : Transformer) (listed : (c.signature, transformer) ∈ methods)
    (ok : transformer c = .ok e) (h : e.value I.withTexts items = d) :
    EvaluatesTo I items c d := by
  refine ⟨e, ?_, h⟩
  rw [Registry.transform, get?_of_mem listed]
  exact ok

theorem isInt_length (h : text.IsText I items v) : (length text).IsInt I items v.length := by
  have marked : (text.concat (.text "#")).IsText I items (v ++ ['#']) :=
    Expr.isText_of_value (Expr.value_concat h (Expr.isText_text "#"))
  have len : (Expr.valueFunction "LEN" [text.concat (.text "#")] .int32).IsInt I items
      (v.length + 1) := by
    rw [Expr.IsInt, Expr.value_valueFunction, List.map_singleton, Interpretation.len_eq marked,
      TextFunction.len_append_mark]
    rfl
  have := len.subtract (Expr.isInt_int 1)
  rwa [Int.add_sub_cancel] at this

theorem isInt_oneBased {i : Int} (h : index.IsInt I items i) :
    (oneBased index).IsInt I items (i + 1) :=
  h.add (Expr.isInt_int 1)

/-- The rest of a text, from an index on, has so many characters. -/
theorem isInt_rest (h : text.IsText I items v) (at_index : start.IsInt I items i)
    (inside : i ≤ v.length) :
    ((length text).subtract start).IsInt I items (v.length - i : Nat) := by
  rw [Int.ofNat_sub inside]
  exact (isInt_length h).subtract at_index

theorem value_substring {first : Expr} (h : text.IsText I items v)
    (at_index : first.IsInt I items (i + 1)) (of_length : count.IsInt I items n) :
    (Expr.valueFunction "SUBSTRING" [text, first, count] .string).value I.withTexts items =
      .text ((v.drop i).take n) := by
  simp only [Expr.value_valueFunction, List.map_cons, List.map_nil,
    Interpretation.substring_eq h at_index of_length, TextFunction.substring_eq]
  rfl

theorem value_stuff {first : Expr} (h : text.IsText I items v)
    (at_index : first.IsInt I items (i + 1)) (of_length : count.IsInt I items n)
    (replacement : value.IsText I items w) (inside : i < v.length) :
    (Expr.valueFunction "STUFF" [text, first, count, value] .string).value I.withTexts items =
      .text (v.take i ++ w ++ v.drop (i + n)) := by
  simp only [Expr.value_valueFunction, List.map_cons, List.map_nil,
    Interpretation.stuff_eq h at_index of_length replacement, TextFunction.stuff_eq inside]
  rfl

theorem value_isEmpty (h : value.IsText I items w) :
    (Expr.equal (length value) (.int 0)).value I.withTexts items = .value (.bool (w = [])) := by
  rw [(isInt_length h).value_equal (Expr.isInt_int 0)]
  simp

theorem isInt_charIndex (h : text.IsText I items v) (searched : value.IsText I items w) :
    (Expr.valueFunction "CHARINDEX" [value, text] .int32).IsInt I items
      (TextFunction.charIndex w v 1) := by
  simp only [Expr.IsInt, Expr.value_valueFunction, List.map_cons, List.map_nil,
    Interpretation.charIndex_eq searched h, Datum.int?_int]

theorem isInt_charIndex_from (h : text.IsText I items v) (searched : value.IsText I items w)
    (at_index : start.IsInt I items i) :
    (Expr.valueFunction "CHARINDEX" [value, text, oneBased start] .int32).IsInt I items
      (TextFunction.charIndex w v (i + 1)) := by
  simp only [Expr.IsInt, Expr.value_valueFunction, List.map_cons, List.map_nil,
    Interpretation.charIndex_from_eq searched h (isInt_oneBased at_index), Datum.int?_int]

theorem value_insert (h : text.IsText I items v) (inserted : value.IsText I items w)
    (at_index : index.IsInt I items i) (inside : i ≤ v.length) :
    (Expr.caseWhen (.equal (oneBased (length text)) (oneBased index)) (.concat text value)
      (.valueFunction "STUFF" [text, oneBased index, .int 0, value] .string)).value
        I.withTexts items = .text (v.take i ++ w ++ v.drop i) := by
  have test : (Expr.equal (oneBased (length text)) (oneBased index)).value I.withTexts items =
      .value (.bool (v.length = i)) := by
    have same : (v.length : Int) + 1 = (i : Int) + 1 ↔ v.length = i := by omega
    rw [(isInt_oneBased (isInt_length h)).value_equal (isInt_oneBased at_index)]
    simp only [same]
  by_cases at_end : v.length = i
  · rw [Expr.value_caseWhen_true (by simpa [at_end] using test), Expr.value_concat h inserted,
      ← at_end, List.take_length, List.drop_length, List.append_nil]
  · rw [Expr.value_caseWhen_false (by simpa [at_end] using test),
      value_stuff (n := 0) h (isInt_oneBased at_index) (Expr.isInt_int 0) inserted (by omega),
      Nat.add_zero]

/-- A search from the start finds the first occurrence; the empty text stands there. -/
theorem value_indexIn (count : Option Expr) (h : text.IsText I items v)
    (searched : value.IsText I items w) :
    ∃ r : Int, (indexIn text value none count).value I.withTexts items = .int r ∧
      IsFirstFrom 0 w v r := by
  by_cases empty : w = []
  · subst empty
    refine ⟨0, ?_, isFirstFrom_start (occursAt_nil.mpr (Nat.zero_le _))⟩
    rw [indexIn, Expr.value_caseWhen_true (value_isEmpty searched)]
    rfl
  · refine ⟨_, ?_, TextFunction.isFirstFrom_charIndex empty v 0⟩
    rw [indexIn, Expr.value_caseWhen_false (by simpa [empty] using value_isEmpty searched)]
    exact ((isInt_charIndex h searched).subtract (Expr.isInt_int 1)).value

/-- A search from an index on. The empty text counts as found before the end only. -/
theorem value_indexIn_from (h : text.IsText I items v) (searched : value.IsText I items w)
    (at_index : start.IsInt I items i) :
    ∃ r : Int, (indexIn text value (some start) none).value I.withTexts items = .int r ∧
      (w ≠ [] ∨ i < v.length → IsFirstFrom i w v r) ∧ (w = [] → v.length ≤ i → r = -1) := by
  have inBounds : (Expr.binaryOf .lessThanOrEqual (oneBased start) (length text)).value
      I.withTexts items = .value (.bool (i < v.length)) := by
    rw [(isInt_oneBased at_index).value_lessThanOrEqual (isInt_length h)]
    have bound : (i : Int) + 1 ≤ v.length ↔ i < v.length := by omega
    simp [bound]
  have test := Expr.value_and (value_isEmpty searched) inBounds
  rw [← Bool.decide_and] at test
  rw [indexIn]
  by_cases found : w = [] ∧ i < v.length
  · obtain ⟨rfl, inside⟩ := found
    refine ⟨i, ?_, fun _ => isFirstFrom_start (occursAt_nil.mpr inside.le), fun _ _ => by omega⟩
    rw [Expr.value_caseWhen_true (by simpa [inside] using test)]
    exact at_index.value
  · refine ⟨TextFunction.charIndex w v (i + 1) - 1, ?_, fun inner => ?_, fun empty _ => ?_⟩
    · rw [Expr.value_caseWhen_false (by simpa [found] using test)]
      exact ((isInt_charIndex_from h searched at_index).subtract (Expr.isInt_int 1)).value
    · exact TextFunction.isFirstFrom_charIndex (by tauto) v i
    · rw [TextFunction.charIndex, if_pos empty]
      rfl

/-- A character is searched for like a text. -/
theorem mem_methods_indexOf {kind : String} (h : kind = "String" ∨ kind = "Char") :
    (Signature.method "String" "IndexOf" [kind], indexOf) ∈ methods ∧
    (Signature.method "String" "IndexOf" [kind, "Int32"], indexOf) ∈ methods ∧
    (Signature.method "String" "IndexOf" [kind, "Int32", "Int32"], indexOf) ∈ methods := by
  rcases h with rfl | rfl <;> simp [methods]

/-- Lengths, parts, insertions and searches of a text are counted from zero, for every text and
every index inside it or at its end. -/
theorem textual_calls_from_zero (I : Interpretation) (items : Items) (text : Expr) (v : List Char)
    (type : ValueType) (source : String) (h : text.IsText I items v) :
    EvaluatesTo I items ⟨.property "String" "Length", some text, [], type, source⟩
      (.int v.length) ∧
    (∀ start (i : Nat), start.IsInt I items i → i ≤ v.length →
      EvaluatesTo I items
        ⟨.method "String" "Substring" ["Int32"], some text, [start], type, source⟩
        (.text (v.drop i)) ∧
      (∀ count (n : Nat), count.IsInt I items n → i + n ≤ v.length →
        EvaluatesTo I items
          ⟨.method "String" "Substring" ["Int32", "Int32"], some text, [start, count], type, source⟩
          (.text ((v.drop i).take n))) ∧
      ∀ value w, value.IsText I items w →
        EvaluatesTo I items
          ⟨.method "String" "Insert" ["Int32", "String"], some text, [start, value], type, source⟩
          (.text (v.take i ++ w ++ v.drop i))) ∧
    ∀ value w, value.IsText I items w → ∀ kind, kind = "String" ∨ kind = "Char" →
      ∃ r : Int, EvaluatesTo I items
          ⟨.method "String" "IndexOf" [kind], some text, [value], type, source⟩ (.int r) ∧
        IsFirstFrom 0 w v r ∧ (w = [] → r = 0) := by
  refine ⟨?_, fun start i at_index inside => ⟨?_, fun count n of_length _ => ?_,
    fun value w inserted => ?_⟩, fun value w searched kind listed => ?_⟩
  · exact evaluatesTo lengthOf (by simp [methods]) rfl (isInt_length h).value
  · refine evaluatesTo substring (by simp [methods]) rfl ?_
    have rest := value_substring h (isInt_oneBased at_index) (isInt_rest h at_index inside)
    rwa [← List.length_drop, List.take_length] at rest
  · exact evaluatesTo substring (by simp [methods]) rfl
      (value_substring h (isInt_oneBased at_index) of_length)
  · exact evaluatesTo insert (by simp [methods]) rfl
      (value_insert h inserted at_index inside)
  · obtain ⟨r, value_eq, first⟩ := value_indexIn none h searched
    refine ⟨r, evaluatesTo indexOf (mem_methods_indexOf listed).1 rfl value_eq, first, ?_⟩
    rintro rfl
    exact first.eq_start (occursAt_nil.mpr (Nat.zero_le _))

/-- A text that ends in a blank: its length, an insertion behind its last character, and that
character found in it. -/
theorem blankEnded_from_zero :
    let text := Expr.constant (.string "ab ") .string
    let atEnd := Expr.constant (.int 3) .int32
    EvaluatesTo noTables noItems ⟨.property "String" "Length", some text, [], .int32, "v.Length"⟩
      (.int 3) ∧
    EvaluatesTo noTables noItems
      ⟨.method "String" "Insert" ["Int32", "String"], some text, [atEnd, text], .string,
        "v.Insert(3, v)"⟩
      (.text ['a', 'b', ' ', 'a', 'b', ' ']) ∧
    ∃ r : Int, EvaluatesTo noTables noItems
        ⟨.method "String" "IndexOf" ["Char"], some text, [.constant (.char ' ') .char], .int32,
          "v.IndexOf(' ')"⟩ (.int r) ∧
      IsFirstFrom 0 [' '] ['a', 'b', ' '] r := by
  intro text atEnd
  have reads : text.IsText noTables noItems ['a', 'b', ' '] := rfl
  have calls := fun type source =>
    textual_calls_from_zero noTables noItems text ['a', 'b', ' '] type source reads
  obtain ⟨r, found, first, -⟩ :=
    (calls .int32 "v.IndexOf(' ')").2.2 (.constant (.char ' ') .char) [' '] rfl "Char" (.inr rfl)
  exact ⟨(calls .int32 "v.Length").1,
    ((calls .string "v.Insert(3, v)").2.1 atEnd 3 rfl (by decide)).2.2 text _ reads,
    r, found, first⟩

/-- A removal, and a search from an index on, are counted from zero. -/
theorem removals_and_searches_from_zero (I : Interpretation) (items : Items) (text : Expr)
    (v : List Char) (type : ValueType) (source : String) (start : Expr) (i : Nat)
    (h : text.IsText I items v) (at_index : start.IsInt I items i) :
    (∀ count (n : Nat), count.IsInt I items n → i < v.length → i + n ≤ v.length →
      EvaluatesTo I items
        ⟨.method "String" "Remove" ["Int32", "Int32"], some text, [start, count], type, source⟩
        (.text (v.take i ++ v.drop (i + n)))) ∧
    ∀ value w, value.IsText I items w → ∀ kind, kind = "String" ∨ kind = "Char" →
      (i ≤ v.length → ∃ r : Int,
        EvaluatesTo I items
          ⟨.method "String" "IndexOf" [kind, "Int32"], some text, [value, start], type, source⟩
          (.int r) ∧
        (w ≠ [] ∨ i < v.length → IsFirstFrom i w v r) ∧ (w = [] → i = v.length → r = -1)) ∧
      ∀ count (n : Nat), count.IsInt I items n → i + n ≤ v.length → ∃ r : Int,
        EvaluatesTo I items
          ⟨.method "String" "IndexOf" [kind, "Int32", "Int32"], some text, [value, start, count],
            type, source⟩
          (.int r) ∧
        (w ≠ [] ∨ 0 < n → IsFirstFrom i w (v.take (i + n)) r) ∧ (w = [] → n = 0 → r = -1) := by
  refine ⟨fun count n of_length inside _ => ?_, fun value w searched kind listed =>
    ⟨fun inside => ?_, fun count n of_length inside => ?_⟩⟩
  · have removed := value_stuff h (isInt_oneBased at_index) of_length (Expr.isText_text "") inside
    rw [String.toList_empty, List.append_nil] at removed
    exact evaluatesTo remove (by simp [methods]) rfl removed
  · obtain ⟨r, value_eq, first, last⟩ := value_indexIn_from h searched at_index
    exact ⟨r, evaluatesTo indexOf (mem_methods_indexOf listed).2.1 rfl value_eq, first,
      fun empty at_end => last empty at_end.ge⟩
  · have part : (Expr.valueFunction "SUBSTRING" [text, .int 1, .add start count] .string).IsText
        I items (v.take (i + n)) :=
      Expr.isText_of_value (value_substring (i := 0) h (Expr.isInt_int 1) (at_index.add of_length))
    have whole : (v.take (i + n)).length = i + n := by simpa using inside
    obtain ⟨r, value_eq, first, last⟩ := value_indexIn_from part searched at_index
    exact ⟨r, evaluatesTo indexOf (mem_methods_indexOf listed).2.2 rfl value_eq,
      fun found => first (found.imp_right (by omega)), fun empty none => last empty (by omega)⟩

/-- The second of three characters removed, and the empty text and that character found there. The
last search looks at one character only. -/
theorem secondCharacter_from_zero :
    let text := Expr.constant (.string "abb") .string
    let one := Expr.constant (.int 1) .int32
    EvaluatesTo noTables noItems
      ⟨.method "String" "Remove" ["Int32", "Int32"], some text, [one, one], .string,
        "v.Remove(1, 1)"⟩
      (.text ['a', 'b']) ∧
    (∃ r : Int, EvaluatesTo noTables noItems
        ⟨.method "String" "IndexOf" ["String", "Int32"], some text,
          [.constant (.string "") .string, one], .int32, "v.IndexOf(w, 1)"⟩ (.int r) ∧
      IsFirstFrom 1 [] ['a', 'b', 'b'] r) ∧
    ∃ r : Int, EvaluatesTo noTables noItems
        ⟨.method "String" "IndexOf" ["Char", "Int32", "Int32"], some text,
          [.constant (.char 'b') .char, one, one], .int32, "v.IndexOf('b', 1, 1)"⟩ (.int r) ∧
      IsFirstFrom 1 ['b'] ['a', 'b'] r := by
  intro text one
  have calls := fun type source =>
    removals_and_searches_from_zero noTables noItems text ['a', 'b', 'b'] type source one 1 rfl rfl
  obtain ⟨r, found, first, -⟩ := ((calls .int32 "v.IndexOf(w, 1)").2
    (.constant (.string "") .string) [] rfl "String" (.inl rfl)).1 (by decide)
  obtain ⟨r', found', first', -⟩ := ((calls .int32 "v.IndexOf('b', 1, 1)").2
    (.constant (.char 'b') .char) ['b'] rfl "Char" (.inr rfl)).2 one 1 rfl (by decide)
  exact ⟨(calls .string "v.Remove(1, 1)").1 one 1 rfl (by decide) (by decide),
    ⟨r, found, first (.inr (by decide))⟩, r', found', first' (.inr (by decide))⟩

/-- Behind the last character nothing can be removed, and the empty text, which stands there, is not
found. -/
theorem removals_and_searches_at_end :
    let text := Expr.constant (.string "ab") .string
    let empty := Expr.constant (.string "") .string
    let atEnd := Expr.constant (.int 2) .int32
    let zero := Expr.constant (.int 0) .int32
    EvaluatesTo noTables noItems
      ⟨.method "String" "Remove" ["Int32", "Int32"], some text, [atEnd, zero], .string,
        "v.Remove(2, 0)"⟩
      .null ∧
    EvaluatesTo noTables noItems
      ⟨.method "String" "IndexOf" ["String", "Int32"], some text, [empty, atEnd], .int32,
        "v.IndexOf(w, 2)"⟩ (.int (-1)) ∧
    EvaluatesTo noTables noItems
      ⟨.method "String" "IndexOf" ["String", "Int32", "Int32"], some text, [empty, atEnd, zero],
        .int32, "v.IndexOf(w, 2, 0)"⟩ (.int (-1)) ∧
    OccursAt [] ['a', 'b'] 2 := by
  intro text empty atEnd zero
  exact ⟨evaluatesTo remove (by simp [methods]) rfl (by decide +kernel),
    evaluatesTo indexOf (by simp [methods]) rfl (by decide +kernel),
    evaluatesTo indexOf (by simp [methods]) rfl (by decide +kernel), occursAt_nil.mpr (by decide)⟩

end Strings

end Comprehension.Method
