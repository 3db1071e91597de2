import Comprehension.Proofs.Evaluation
import Comprehension.Proofs.Lexing

/-!
Reading the text of a condition. Words are operands, comparisons, connectives and parentheses; a
reader takes them one by one, `NOT` before `AND` before `OR`, and makes a condition of them. A
condition is true, false or, because of a null, neither.
-/
namespace Comprehension.Criteria

open Lexing (Token scan)
open Sql (BinaryOp LogicalOp)

inductive Operand where
  | column (owner name : String)
  | number (n : Int)
  | null
deriving DecidableEq

inductive Condition where
  | compare (op : BinaryOp) (left right : Operand)
  | isNull (x : Operand)
  | isNotNull (x : Operand)
  | not (c : Condition)
  | logical (op : LogicalOp) (left right : Condition)
deriving DecidableEq

inductive Word where
  | operand (x : Operand)
  | comparison (op : BinaryOp)
  | logical (op : LogicalOp)
  | not
  | is
  | opening
  | closing
deriving DecidableEq

/-- Words that are no numbers. -/
def keywords : List (String × Word) :=
  [("NULL", .operand .null), ("IS", .is), ("NOT", .not), ("AND", .logical .and),
   ("OR", .logical .or), ("=", .comparison .equal), ("<>", .comparison .notEqual),
   ("<", .comparison .lessThan), ("<=", .comparison .lessThanOrEqual),
   (">", .comparison .greaterThan), (">=", .comparison .greaterThanOrEqual)]

def natural? (cs : List Char) : Option Nat :=
  if !cs.isEmpty && cs.all Char.isDigit then some (Nat.ofDigitChars 10 cs 0) else none

/-- The number that digits spell, with a sign in front of them where it is negative. -/
def integer? : List Char → Option Int
  | '-' :: cs => (natural? cs).map fun n => -n
  | cs => (natural? cs).map fun n => n

/-- The word that some characters spell. -/
def word? (cs : List Char) : Option Word :=
  (keywords.lookup (String.ofList cs)).or ((integer? cs).map fun n => .operand (.number n))

/-- Characters that end a word. -/
def isBreak (c : Char) : Bool := c = ' ' ∨ c = '(' ∨ c = ')'

/-- The word of a character that ends one. -/
def breakWords (c : Char) : List Word :=
  if c = '(' then [.opening] else if c = ')' then [.closing] else []

/-- A word of which some tokens have been read. A column is the name of its owner, a dot and its own
name, or a star. -/
inductive Begun where
  | spelled (cs : List Char)
  | owner (name : String)
  | dotted (owner : String)
  | column (owner name : String)

namespace Begun

def extend : Begun → Token → Option Begun
  | .spelled cs, .mark c => some (.spelled (cs ++ [c]))
  | .spelled [], .name table => some (.owner table)
  | .owner table, .mark '.' => some (.dotted table)
  | .dotted table, .name name => some (.column table name)
  | .dotted table, .mark '*' => some (.column table "*")
  | _, _ => none

/-- The word, if it is complete and if there is one. -/
def flush : Begun → Option (List Word)
  | .spelled [] => some []
  | .spelled cs => (word? cs).map fun w => [w]
  | .column table name => some [.operand (.column table name)]
  | .owner _ | .dotted _ => none

end Begun

/-- The words of tokens, the first of which has begun. -/
def words (begun : Begun) : List Token → Option (List Word)
  | [] => begun.flush
  | .mark c :: rest =>
    if isBreak c then
      begun.flush.bind fun first => (words (.spelled []) rest).map fun later =>
        first ++ breakWords c ++ later
    else (begun.extend (.mark c)).bind (words · rest)
  | token :: rest => (begun.extend token).bind (words · rest)

/-- The words of a text. -/
def lexemes (cs : List Char) : Option (List Word) := (scan cs).bind (words (.spelled []))

section Lexemes

/-- Whether no word goes on at the first token. -/
def StartsAfresh (tokens : List Token) : Prop :=
  tokens = [] ∨ ∃ c rest, tokens = .mark c :: rest ∧ isBreak c = true

theorem words_break {c : Char} (h : isBreak c = true) (begun : Begun) (rest : List Token) :
    words begun (.mark c :: rest) = begun.flush.bind fun first =>
      (words (.spelled []) rest).map fun later => first ++ breakWords c ++ later := by
  rw [words, if_pos h]

/-- Words on both sides of a break are read by themselves. -/
theorem words_append {later : List Token} (afresh : StartsAfresh later) (begun : Begun)
    (a : List Token) :
    words begun (a ++ later) =
      (words begun a).bind fun ws => (words (.spelled []) later).map (ws ++ ·) := by
  have through (next : Option Begun) {rest : List Token}
      (ih : ∀ begun, words begun (rest ++ later) =
        (words begun rest).bind fun ws => (words (.spelled []) later).map (ws ++ ·)) :
      (next.bind (words · (rest ++ later))) =
        (next.bind (words · rest)).bind fun ws => (words (.spelled []) later).map (ws ++ ·) := by
    cases next with
    | none => rfl
    | some begun => exact ih begun
  induction a generalizing begun with
  | nil =>
    rcases afresh with rfl | ⟨c, rest, rfl, isBreak⟩
    · cases begun.flush <;> simp [words, Begun.flush]
    · rw [List.nil_append, words_break isBreak, words_break isBreak, words]
      cases begun.flush <;> simp [Begun.flush, Function.comp_def]
  | cons token rest ih =>
    cases token with
    | mark c =>
      by_cases isBreak : isBreak c = true
      · rw [List.cons_append, words_break isBreak, words_break isBreak, ih]
        cases begun.flush <;> cases words (.spelled []) rest <;>
          simp [Function.comp_def]
      · rw [List.cons_append, words, words, if_neg isBreak, if_neg isBreak]
        exact through _ ih
    | name text => exact through (begun.extend (.name text)) ih
    | quoted text => exact through (begun.extend (.quoted text)) ih

theorem words_after_break {c : Char} (h : isBreak c = true) (begun : Begun) (a later : List Token) :
    words begun (a ++ .mark c :: later) =
      (words begun (a ++ [Lexing.Token.mark c])).bind fun ws =>
        (words (.spelled []) later).map (ws ++ ·) := by
  have afresh (rest : List Token) : StartsAfresh (.mark c :: rest) := .inr ⟨c, rest, rfl, h⟩
  rw [words_append (afresh later), words_append (afresh []), words_break h, words_break h]
  cases words begun a <;> cases words (.spelled []) later <;> simp [Begun.flush, words]

/-- Text that keeps the words on both sides apart, and the words in it. -/
structure Divides (text : String) (between : List Word) : Prop where
  separator : Lexing.isSeparator text = true
  first : text.toList.head?.any isBreak = true
  last : text.toList.getLast?.any isBreak = true
  read : words (.spelled []) (Lexing.marks text) = some between

instance (text : String) (between : List Word) : Decidable (Divides text between) :=
  decidable_of_iff (Lexing.isSeparator text = true ∧ text.toList.head?.any isBreak = true ∧
      text.toList.getLast?.any isBreak = true ∧
      words (.spelled []) (Lexing.marks text) = some between)
    ⟨fun h => ⟨h.1, h.2.1, h.2.2.1, h.2.2.2⟩, fun h => ⟨h.separator, h.first, h.last, h.read⟩⟩

/-- Words on both sides of a divider are read by themselves. -/
theorem lexemes_divided {a b : List Char} {text : String} {ws between ws' : List Word}
    (ha : lexemes a = some ws) (divides : Divides text between) (hb : lexemes b = some ws') :
    lexemes (a ++ (text.toList ++ b)) = some (ws ++ (between ++ ws')) := by
  obtain ⟨separator, first, last, middle⟩ := divides
  obtain ⟨s, scannedA, readA⟩ := Option.bind_eq_some_iff.mp ha
  obtain ⟨t, scannedB, readB⟩ := Option.bind_eq_some_iff.mp hb
  have front := Lexing.scan_append scannedA (Lexing.scan_separator separator)
    (Lexing.joins_separator separator a)
  have whole := Lexing.scan_append front scannedB (Lexing.separator_joins separator a b)
  rw [List.append_assoc, List.append_assoc] at whole
  obtain ⟨c, hc, isFirst⟩ := (Option.any_eq_true _ _).mp first
  obtain ⟨d, hd, isLast⟩ := (Option.any_eq_true _ _).mp last
  obtain ⟨rest, starts⟩ := List.head?_eq_some_iff.mp hc
  obtain ⟨init, ends⟩ := List.getLast?_eq_some_iff.mp hd
  have afresh : StartsAfresh (Lexing.marks text ++ t) := by
    refine .inr ⟨c, rest.map .mark ++ t, ?_, isFirst⟩
    rw [Lexing.marks, starts]
    rfl
  have marks : Lexing.marks text = init.map Lexing.Token.mark ++ [Lexing.Token.mark d] := by
    rw [Lexing.marks, ends, List.map_append]
    rfl
  rw [marks] at middle
  have behind : words (.spelled []) (Lexing.marks text ++ t) = some (between ++ ws') := by
    rw [marks, List.append_assoc, List.singleton_append, words_after_break isLast, middle, readB]
    rfl
  rw [lexemes, whole, Option.bind_some, words_append afresh, readA, behind]
  rfl

theorem lexemes_nil : lexemes [] = some [] := rfl

theorem words_spelled {cs : List Char} (h : ∀ c ∈ cs, isBreak c = false) (read : List Char) :
    words (.spelled read) (cs.map .mark) = (Begun.spelled (read ++ cs)).flush := by
  induction cs generalizing read with
  | nil => rw [List.append_nil, List.map_nil, words]
  | cons c cs ih =>
    obtain ⟨first, rest⟩ := List.forall_mem_cons.mp h
    rw [List.map_cons, words, if_neg (by rw [first]; exact Bool.false_ne_true)]
    change words (.spelled (read ++ [c])) (cs.map .mark) = _
    rw [ih rest, List.append_assoc, List.singleton_append]

/-- A text without breaks and delimiters is read as one word. -/
theorem lexemes_word {cs : List Char} {w : Word}
    (h : ∀ c ∈ cs, c ≠ '[' ∧ c ≠ '\'' ∧ isBreak c = false) (found : word? cs = some w) :
    lexemes cs = some [w] := by
  have scanned := Lexing.scan_marks fun c hc => ⟨(h c hc).1, (h c hc).2.1⟩
  rw [lexemes, scanned, Option.bind_some, words_spelled fun c hc => (h c hc).2.2, List.nil_append]
  cases cs with
  | nil => cases found
  | cons c cs =>
    rw [Begun.flush, found]
    · rfl
    · nofun

theorem natural?_repr (n : Nat) : natural? n.repr.toList = some n := by
  have digits : (Nat.toDigits 10 n).all Char.isDigit = true :=
    List.all_eq_true.mpr fun c hc => Nat.isDigit_of_mem_toDigits (by decide) (by decide) hc
  rw [natural?, Nat.toList_repr, digits, List.isEmpty_eq_false_iff.mpr Nat.toDigits_ne_nil,
    Nat.ofDigitChars_ten_toDigits]
  rfl

theorem toList_negSucc (n : Nat) :
    (toString (Int.negSucc n)).toList = '-' :: (n + 1).repr.toList := by
  simp [toString, Int.repr]

/-- The characters of a number: digits, or a sign. -/
theorem isDigit_or_sign {n : Int} {c : Char} (h : c ∈ (toString n).toList) :
    c.isDigit = true ∨ c = '-' := by
  have digit {n : Nat} (h : c ∈ n.repr.toList) : c.isDigit = true := by
    rw [Nat.toList_repr] at h
    exact Nat.isDigit_of_mem_toDigits (by decide) (by decide) h
  cases n with
  | ofNat n => exact .inl (digit h)
  | negSucc n =>
    rw [toList_negSucc, List.mem_cons] at h
    exact h.symm.imp digit id

theorem integer?_toString (n : Int) : integer? (toString n).toList = some n := by
  cases n with
  | ofNat n =>
    have found := natural?_repr n
    change integer? n.repr.toList = _
    cases cs : n.repr.toList with
    | nil =>
      rw [cs] at found
      cases found
    | cons c rest =>
      have unsigned : c ≠ '-' := by
        rintro rfl
        have digit : ('-').isDigit = true := by
          refine Nat.isDigit_of_mem_toDigits (b := 10) (n := n) (by decide) (by decide) ?_
          rw [← Nat.toList_repr, cs]
          exact List.mem_cons_self
        cases digit
      rw [integer?, ← cs, found]
      · rfl
      · intro rest' same
        exact unsigned (List.cons.inj same).1
  | negSucc n =>
    rw [toList_negSucc, integer?, natural?_repr]
    rfl

/-- A number is one word. -/
theorem lexemes_int (n : Int) : lexemes (toString n).toList = some [.operand (.number n)] := by
  have numberless : ∀ entry ∈ keywords, integer? entry.1.toList = none := by decide
  refine lexemes_word (fun c hc => ?_) ?_
  · rcases isDigit_or_sign hc with digit | rfl
    · refine ⟨?_, ?_, ?_⟩
      · rintro rfl
        cases digit
      · rintro rfl
        cases digit
      · rw [isBreak, decide_eq_false_iff_not]
        rintro (rfl | rfl | rfl) <;> cases digit
    · decide
  · have noKeyword : keywords.lookup (String.ofList (toString n).toList) = none := by
      refine List.lookup_eq_none_iff.mpr fun entry he => ?_
      rw [String.ofList_toList, bne_iff_ne]
      intro same
      have none := numberless entry he
      rw [← same, integer?_toString] at none
      cases none
    rw [word?, noKeyword, integer?_toString]
    rfl

end Lexemes

/-- What has been read between two parentheses, or outside of all: the operands of `OR` and of `AND`
that are complete, and how often what follows is negated. -/
structure Level where
  alternatives : Option Condition := none
  conjuncts : Option Condition := none
  negations : Nat := 0

namespace Level

def joined (op : LogicalOp) (before : Option Condition) (c : Condition) : Condition :=
  match before with
  | none => c
  | some first => .logical op first c

def negated (level : Level) (c : Condition) : Condition := Condition.not^[level.negations] c

def conjunction (level : Level) (c : Condition) : Condition := joined .and level.conjuncts c

def whole (level : Level) (c : Condition) : Condition :=
  joined .or level.alternatives (level.conjunction c)

end Level

/-- What may follow. -/
inductive Phase where
  /-- A condition. -/
  | expected
  /-- A comparison or a test of the operand. -/
  | subject (x : Operand)
  | compared (op : BinaryOp) (x : Operand)
  | tested (negated : Bool) (x : Operand)
  /-- A connective, a parenthesis or the end. -/
  | complete (c : Condition)

/-- A reader: what may follow, the level it is on, and the levels around it from the inside out. -/
structure Reader where
  phase : Phase
  level : Level
  outer : List Level

namespace Reader

def start : Reader := ⟨.expected, {}, []⟩

def step : Reader → Word → Option Reader
  | ⟨.expected, level, outer⟩, .opening => some ⟨.expected, {}, level :: outer⟩
  | ⟨.expected, level, outer⟩, .not =>
    some ⟨.expected, { level with negations := level.negations + 1 }, outer⟩
  | ⟨.expected, level, outer⟩, .operand x => some ⟨.subject x, level, outer⟩
  | ⟨.subject x, level, outer⟩, .comparison op => some ⟨.compared op x, level, outer⟩
  | ⟨.subject x, level, outer⟩, .is => some ⟨.tested false x, level, outer⟩
  | ⟨.compared op x, level, outer⟩, .operand y =>
    some ⟨.complete (level.negated (.compare op x y)), level, outer⟩
  | ⟨.tested false x, level, outer⟩, .not => some ⟨.tested true x, level, outer⟩
  | ⟨.tested negated x, level, outer⟩, .operand .null =>
    some ⟨.complete (level.negated (if negated then .isNotNull x else .isNull x)), level, outer⟩
  | ⟨.complete c, level, outer⟩, .logical .and =>
    some ⟨.expected, ⟨level.alternatives, some (level.conjunction c), 0⟩, outer⟩
  | ⟨.complete c, level, outer⟩, .logical .or => some ⟨.expected, ⟨some (level.whole c), none, 0⟩, outer⟩
  | ⟨.complete c, level, around :: outer⟩, .closing =>
    some ⟨.complete (around.negated (level.whole c)), around, outer⟩
  | _, _ => none

def run (reader : Reader) (ws : List Word) : Option Reader := ws.foldlM step reader

/-- The condition, once all parentheses are closed. -/
def finish : Reader → Option Condition
  | ⟨.complete c, level, []⟩ => some (level.whole c)
  | _ => none

theorem run_cons (reader : Reader) (w : Word) (ws : List Word) :
    reader.run (w :: ws) = (reader.step w).bind (·.run ws) :=
  List.foldlM_cons

theorem run_append (reader : Reader) (ws ws' : List Word) :
    reader.run (ws ++ ws') = (reader.run ws).bind (·.run ws') :=
  List.foldlM_append

end Reader

/-- The condition that a text spells. -/
def reading (text : String) : Option Condition :=
  (lexemes text.toList).bind fun ws => (Reader.start.run ws).bind Reader.finish

section Truth

variable {V : Type} (number : Int → V) (row : String → String → Option V)

/-- What an operand stands for on a row; null is no value. -/
def Operand.value : Operand → Option V
  | .column owner name => row owner name
  | .number n => some (number n)
  | .null => none

variable [LinearOrder V]

/-- Whether two values are related. -/
def relates : BinaryOp → V → V → Bool
  | .equal, a, b => a = b
  | .notEqual, a, b => a ≠ b
  | .lessThan, a, b => a < b
  | .lessThanOrEqual, a, b => a ≤ b
  | .greaterThan, a, b => b < a
  | .greaterThanOrEqual, a, b => b ≤ a
  | _, _, _ => false

/-- A comparison with a null is neither true nor false; a test for null always is one of them. -/
def Condition.truth : Condition → Option Bool
  | .compare op x y =>
    (x.value number row).bind fun a => (y.value number row).map fun b => relates op a b
  | .isNull x => some (x.value number row).isNone
  | .isNotNull x => some (x.value number row).isSome
  | .not c => c.truth.map (!·)
  | .logical op c d => op.truth c.truth d.truth

/-- A connective is true when its operands are. -/
theorem truth_or (a b : Option Bool) :
    LogicalOp.truth .or a b = some true ↔ a = some true ∨ b = some true := by
  match a, b with
  | some true, some true | some true, some false | some false, some true | some false, some false
  | none, some true | none, some false | some true, none | some false, none | none, none =>
    simp [LogicalOp.truth]

end Truth

end Comprehension.Criteria
