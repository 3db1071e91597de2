import Comprehension.Text.Quoted
import Mathlib.Data.List.Chain

/-!
Reading the text of a command from left to right. A name stands between brackets and a text between
quotes, each with its closing delimiter doubled inside; every other character is a mark of its own.
What was written with delimiters is read back as one token, and a text that starts or ends with a
plain character can stand next to any other.
-/
namespace Comprehension.Lexing

inductive Token where
  /-- A name between brackets. -/
  | name (text : String)
  /-- A text between quotes. -/
  | quoted (text : String)
  | mark (c : Char)
deriving DecidableEq

inductive Delimiter where
  | bracket
  | quote
deriving DecidableEq

namespace Delimiter

def opening : Delimiter → Char
  | bracket => '['
  | quote => '\''

def closing : Delimiter → Char
  | bracket => ']'
  | quote => '\''

def token : Delimiter → List Char → Token
  | bracket, cs => .name (String.ofList cs)
  | quote, cs => .quoted (String.ofList cs)

end Delimiter

/-- Where a reader is: between tokens, inside one, or behind a closing delimiter that the next
character may turn into a doubled one. -/
inductive Mode where
  | outside
  | within (d : Delimiter) (read : List Char)
  | closed (d : Delimiter) (read : List Char)
deriving DecidableEq

/-- The first character of a token. -/
def start (c : Char) : Mode × List Token :=
  if c = '[' then (.within .bracket [], [])
  else if c = '\'' then (.within .quote [], [])
  else (.outside, [.mark c])

/-- One character, and the tokens that end with it. -/
def step : Mode → Char → Mode × List Token
  | .outside, c => start c
  | .within d read, c =>
    if c = d.closing then (.closed d read, []) else (.within d (read ++ [c]), [])
  | .closed d read, c =>
    if c = d.closing then (.within d (read ++ [c]), [])
    else ((start c).1, d.token read :: (start c).2)

def run (mode : Mode) : List Char → Mode × List Token
  | [] => (mode, [])
  | c :: rest =>
    let next := step mode c
    let later := run next.1 rest
    (later.1, next.2 ++ later.2)

/-- The tokens that are complete at the end; a token that is not closed is no token. -/
def finish : Mode → Option (List Token)
  | .outside => some []
  | .within .. => none
  | .closed d read => some [d.token read]

/-- All tokens of a text, if each one is closed. -/
def scan (cs : List Char) : Option (List Token) :=
  (finish (run .outside cs).1).map ((run .outside cs).2 ++ ·)

/-- The nesting of parentheses after a token, unless it closes one that was not open. -/
def Token.nest : Token → Nat → Option Nat
  | .mark c, depth =>
    if c = '(' then some (depth + 1)
    else if c = ')' then match depth with
      | 0 => none
      | depth + 1 => some depth
    else some depth
  | .name _, depth | .quoted _, depth => some depth

/-- The nesting of parentheses after some tokens. -/
def nesting : Nat → List Token → Option Nat
  | depth, [] => some depth
  | depth, token :: rest => (token.nest depth).bind fun depth => nesting depth rest

/-- Whether two tokens next to each other do not start a comment. -/
def Apart (t u : Token) : Prop :=
  ¬ (t = .mark '-' ∧ u = .mark '-') ∧ ¬ (t = .mark '/' ∧ u = .mark '*')

/-- Whether no statement ends and no comment starts among tokens. -/
def Tame (tokens : List Token) : Prop := .mark ';' ∉ tokens ∧ tokens.IsChain Apart

instance (t u : Token) : Decidable (Apart t u) := inferInstanceAs (Decidable (_ ∧ _))

instance (tokens : List Token) : Decidable (Tame tokens) := inferInstanceAs (Decidable (_ ∧ _))

def Token.name? : Token → Option String
  | .name text => some text
  | _ => none

/-- The names among tokens. -/
def names (tokens : List Token) : List String := tokens.filterMap Token.name?

section Reading

theorem run_append (mode : Mode) (a b : List Char) :
    run mode (a ++ b) = ((run (run mode a).1 b).1, (run mode a).2 ++ (run (run mode a).1 b).2) := by
  induction a generalizing mode with
  | nil => simp [run]
  | cons c a ih => simp [run, ih]

/-- A reader behind a closing delimiter has read it last. -/
theorem getLast?_of_run {mode : Mode} {cs : List Char} {d : Delimiter} {read : List Char}
    (hne : cs ≠ []) (h : (run mode cs).1 = .closed d read) : cs.getLast? = some d.closing := by
  rcases List.eq_nil_or_concat cs with rfl | ⟨before, c, rfl⟩
  · exact absurd rfl hne
  · rw [List.concat_eq_append, run_append] at h
    have last : (step (run mode before).1 c).1 = .closed d read := h
    rw [List.concat_eq_append, List.getLast?_append, List.getLast?_singleton, Option.some_or]
    have fresh : (start c).1 ≠ .closed d read := by
      unfold start
      split
      · simp
      · split <;> simp
    cases hm : (run mode before).1 with
    | outside =>
      rw [hm] at last
      exact absurd last fresh
    | within d' read' =>
      rw [hm, step] at last
      split at last
      · rename_i same
        cases last
        rw [same]
      · cases last
    | closed d' read' =>
      rw [hm, step] at last
      split at last
      · cases last
      · exact absurd last fresh

/-- Behind a closing delimiter, another character starts from the outside. -/
theorem run_closed {d : Delimiter} {read : List Char} {c : Char} (h : c ≠ d.closing)
    (rest : List Char) :
    run (.closed d read) (c :: rest) =
      ((run .outside (c :: rest)).1, d.token read :: (run .outside (c :: rest)).2) := by
  simp [run, step, h]

/-- Whether the first character of a text does not double the last one of another. -/
def Joins (a b : List Char) : Prop :=
  ∀ c, b.head? = some c → ∀ d : Delimiter, c = d.closing → a.getLast? ≠ some c

theorem scan_append {a b : List Char} {s t : List Token} (ha : scan a = some s)
    (hb : scan b = some t) (joins : Joins a b) : scan (a ++ b) = some (s ++ t) := by
  obtain ⟨last, ended, rfl⟩ := Option.map_eq_some_iff.mp ha
  obtain ⟨last', ended', rfl⟩ := Option.map_eq_some_iff.mp hb
  unfold scan
  rw [run_append]
  cases hm : (run .outside a).1 with
  | outside =>
    rw [hm] at ended
    obtain rfl := Option.some.inj ended
    simp [ended']
  | within d read =>
    rw [hm] at ended
    cases ended
  | closed d read =>
    rw [hm] at ended
    obtain rfl := Option.some.inj ended
    cases b with
    | nil =>
      obtain rfl := Option.some.inj ended'
      simp [run, finish]
    | cons c b =>
      have other : c ≠ d.closing := by
        intro same
        have hne : a ≠ [] := by
          rintro rfl
          cases hm
        exact joins c rfl d same (same ▸ getLast?_of_run hne hm)
      rw [run_closed other]
      simp [ended']

/-- Inside a token, a text with its closing delimiters doubled is read as it stands. -/
theorem run_double (d : Delimiter) (read cs : List Char) :
    run (.within d read) (Text.double d.closing cs) = (.within d (read ++ cs), []) := by
  induction cs generalizing read with
  | nil => simp [run]
  | cons c cs ih =>
    rw [Text.double_cons, run_append]
    by_cases h : c = d.closing
    · subst h
      simp [run, step, ih]
    · simp [run, step, h, ih]

/-- What is written between delimiters is read back as one token. -/
theorem scan_enclosed (d : Delimiter) (text : String) :
    scan (Text.enclosed d.opening d.closing text).toList = some [d.token text.toList] := by
  have opened : start d.opening = (.within d [], []) := by cases d <;> rfl
  have closed : step (.within d text.toList) d.closing = (.closed d text.toList, []) := by
    simp [step]
  have read : run .outside (Text.enclosed d.opening d.closing text).toList =
      (.closed d text.toList, []) := by
    rw [Text.enclosed, String.toList_ofList, List.cons_append, run, step, opened, run_append,
      run_double, run, List.nil_append, closed]
    rfl
  rw [scan, read]
  rfl

end Reading

section Nesting

theorem nesting_append (depth : Nat) (s t : List Token) :
    nesting depth (s ++ t) = (nesting depth s).bind (nesting · t) := by
  induction s generalizing depth with
  | nil => rfl
  | cons token s ih =>
    rw [List.cons_append, nesting, nesting]
    cases token.nest depth with
    | none => rfl
    | some depth' => exact ih depth'

theorem Token.nest_shift (k : Nat) {token : Token} {depth depth' : Nat}
    (h : token.nest depth = some depth') : token.nest (depth + k) = some (depth' + k) := by
  cases token with
  | mark c =>
    unfold nest at h ⊢
    dsimp only at h ⊢
    by_cases opening : c = '('
    · rw [if_pos opening] at h ⊢
      obtain rfl := Option.some.inj h
      rw [Nat.add_right_comm]
    · rw [if_neg opening] at h ⊢
      by_cases closing : c = ')'
      · rw [if_pos closing] at h ⊢
        cases depth with
        | zero => cases h
        | succ depth =>
          obtain rfl := Option.some.inj h
          rw [Nat.add_right_comm]
      · rw [if_neg closing] at h ⊢
        obtain rfl := Option.some.inj h
        rfl
  | _ =>
    obtain rfl := Option.some.inj h
    rfl

/-- What is balanced at one depth is balanced at every larger one. -/
theorem nesting_shift (k : Nat) {depth depth' : Nat} {tokens : List Token}
    (h : nesting depth tokens = some depth') :
    nesting (depth + k) tokens = some (depth' + k) := by
  induction tokens generalizing depth with
  | nil =>
    obtain rfl := Option.some.inj h
    rfl
  | cons token tokens ih =>
    obtain ⟨next, first, rest⟩ := Option.bind_eq_some_iff.mp h
    rw [nesting, token.nest_shift k first]
    exact ih rest

end Nesting

section Plain

/-- Characters that start and end nothing, whatever they stand next to. -/
def isPlain (c : Char) : Bool := c ∉ ['[', ']', '\'', ';', '-', '/', '*']

def marks (text : String) : List Token := text.toList.map .mark

theorem isPlain_iff {c : Char} :
    isPlain c = true ↔ c ≠ '[' ∧ c ≠ ']' ∧ c ≠ '\'' ∧ c ≠ ';' ∧ c ≠ '-' ∧ c ≠ '/' ∧ c ≠ '*' := by
  simp [isPlain]

theorem step_of_ne {c : Char} (bracket : c ≠ '[') (quote : c ≠ '\'') :
    step .outside c = (.outside, [.mark c]) := by
  simp [step, start, bracket, quote]

/-- Text without an opening delimiter is a sequence of marks. -/
theorem scan_marks {cs : List Char} (h : ∀ c ∈ cs, c ≠ '[' ∧ c ≠ '\'') :
    scan cs = some (cs.map .mark) := by
  have read : run .outside cs = (.outside, cs.map .mark) := by
    induction cs with
    | nil => rfl
    | cons c cs ih =>
      obtain ⟨⟨bracket, quote⟩, rest⟩ := List.forall_mem_cons.mp h
      simp [run, step_of_ne bracket quote, ih rest]
  rw [scan, read]
  simp [finish]

theorem apart_of_plain_left {c : Char} (h : isPlain c = true) (u : Token) : Apart (.mark c) u := by
  obtain ⟨-, -, -, -, dash, slash, -⟩ := isPlain_iff.mp h
  exact ⟨fun both => dash (Token.mark.inj both.1), fun both => slash (Token.mark.inj both.1)⟩

theorem apart_of_plain_right {c : Char} (h : isPlain c = true) (t : Token) : Apart t (.mark c) := by
  obtain ⟨-, -, -, -, dash, -, star⟩ := isPlain_iff.mp h
  exact ⟨fun both => dash (Token.mark.inj both.2), fun both => star (Token.mark.inj both.2)⟩

/-- A text of plain characters that is there to keep others apart. -/
def isSeparator (text : String) : Bool := !text.toList.isEmpty && text.toList.all isPlain

variable {text : String}

theorem plain_of_isSeparator (h : isSeparator text = true) {c : Char} (hc : c ∈ text.toList) :
    isPlain c = true := by
  rw [isSeparator, Bool.and_eq_true] at h
  exact List.all_eq_true.mp h.2 c hc

theorem ne_nil_of_isSeparator (h : isSeparator text = true) : text.toList ≠ [] := by
  rw [isSeparator, Bool.and_eq_true] at h
  simpa using h.1

theorem scan_separator (h : isSeparator text = true) : scan text.toList = some (marks text) :=
  scan_marks fun _ hc =>
    have plain := isPlain_iff.mp (plain_of_isSeparator h hc)
    ⟨plain.1, plain.2.2.1⟩

/-- No delimiter is a plain character. -/
theorem ne_closing_of_plain {c : Char} (h : isPlain c = true) (d : Delimiter) : c ≠ d.closing := by
  obtain ⟨-, bracket, quote, -⟩ := isPlain_iff.mp h
  cases d with
  | bracket => exact bracket
  | quote => exact quote

theorem joins_separator (h : isSeparator text = true) (cs : List Char) : Joins cs text.toList := by
  intro c hc d closing
  exact absurd closing (ne_closing_of_plain (plain_of_isSeparator h (List.mem_of_head? hc)) d)

theorem separator_joins (h : isSeparator text = true) (before cs : List Char) :
    Joins (before ++ text.toList) cs := by
  intro c hc d closing last
  rw [List.getLast?_append_of_ne_nil _ (ne_nil_of_isSeparator h)] at last
  exact ne_closing_of_plain (plain_of_isSeparator h (List.mem_of_getLast? last)) d closing

/-- Tokens on both sides of a separator stay apart. -/
theorem tame_separated (h : isSeparator text = true) {s t : List Token} (hs : Tame s)
    (ht : Tame t) : Tame (s ++ (marks text ++ t)) := by
  have plain {u : Token} (hu : u ∈ marks text) : ∃ c, isPlain c = true ∧ u = .mark c := by
    obtain ⟨c, hc, rfl⟩ := List.mem_map.mp hu
    exact ⟨c, plain_of_isSeparator h hc, rfl⟩
  have between : (marks text).IsChain Apart := by
    refine (List.pairwise_iff_forall_sublist.mpr fun {u v} sub => ?_).isChain
    obtain ⟨c, hc, rfl⟩ := plain (sub.subset List.mem_cons_self)
    exact apart_of_plain_left hc v
  refine ⟨?_, ?_⟩
  · rw [List.mem_append, List.mem_append]
    rintro (mem | mem | mem)
    · exact hs.1 mem
    · obtain ⟨c, hc, same⟩ := plain mem
      exact (isPlain_iff.mp hc).2.2.2.1 (Token.mark.inj same).symm
    · exact ht.1 mem
  · rw [List.isChain_append, List.isChain_append]
    refine ⟨hs.2, ⟨between, ht.2, fun u hu v _ => ?_⟩, fun u _ v hv => ?_⟩
    · obtain ⟨c, hc, rfl⟩ := plain (List.mem_of_getLast? hu)
      exact apart_of_plain_left hc v
    · have first : (marks text).head? = some v := by
        rwa [List.head?_append_of_ne_nil _ (by simpa [marks] using ne_nil_of_isSeparator h)] at hv
      obtain ⟨c, hc, rfl⟩ := plain (List.mem_of_head? first)
      exact apart_of_plain_right hc u

theorem names_marks (text : String) : names (marks text) = [] := by
  simp [names, marks, List.filterMap_map, Token.name?, Function.comp_def]

end Plain

section Whole

/-- Whether a text is read to its end from one nesting of parentheses to another, with no statement
ended and no comment started, and with some names in it. -/
def Reads (depth depth' : Nat) (found : List String) (cs : List Char) : Prop :=
  ∃ tokens, scan cs = some tokens ∧ nesting depth tokens = some depth' ∧ Tame tokens ∧
    names tokens = found

variable {depth depth' : Nat} {found : List String} {cs : List Char}

theorem reads_nil (depth : Nat) : Reads depth depth [] [] :=
  ⟨[], rfl, rfl, by decide, rfl⟩

theorem Reads.shift (h : Reads depth depth' found cs) (k : Nat) :
    Reads (depth + k) (depth' + k) found cs := by
  obtain ⟨tokens, scanned, nested, tame, named⟩ := h
  exact ⟨tokens, scanned, nesting_shift k nested, tame, named⟩

/-- What is balanced by itself is balanced anywhere. -/
theorem Reads.anywhere (h : Reads 0 0 found cs) (depth : Nat) : Reads depth depth found cs := by
  simpa using h.shift depth

/-- Texts on both sides of a separator are read one after the other. -/
theorem Reads.separated {i j k l : Nat} {before after : List String} {a b : List Char}
    {text : String} (ha : Reads i j before a) (separator : isSeparator text = true)
    (hn : nesting j (marks text) = some k) (hb : Reads k l after b) :
    Reads i l (before ++ after) (a ++ (text.toList ++ b)) := by
  obtain ⟨s, scannedA, nestedA, tameA, rfl⟩ := ha
  obtain ⟨t, scannedB, nestedB, tameB, rfl⟩ := hb
  have first := scan_append scannedA (scan_separator separator) (joins_separator separator a)
  have whole := scan_append first scannedB (separator_joins separator a b)
  rw [List.append_assoc, List.append_assoc] at whole
  refine ⟨_, whole, ?_, tame_separated separator tameA tameB, ?_⟩
  · rw [nesting_append, nestedA, Option.bind_some, nesting_append, hn, Option.bind_some, nestedB]
  · rw [names, List.filterMap_append, List.filterMap_append]
    congr 1
    rw [← names, names_marks]
    rfl

theorem reads_enclosed (d : Delimiter) (text : String) (depth : Nat) :
    Reads depth depth (names [d.token text.toList])
      (Text.enclosed d.opening d.closing text).toList := by
  refine ⟨_, scan_enclosed d text, ?_, ?_, rfl⟩
  · cases d <;> rfl
  · cases d <;> simp [Tame, Delimiter.token]

/-- Separators can be read by themselves. -/
theorem reads_separator {text : String} (separator : isSeparator text = true)
    (hn : nesting depth (marks text) = some depth') : Reads depth depth' [] text.toList := by
  simpa using (reads_nil depth).separated separator hn (reads_nil depth')

theorem isSeparator_repr (n : Nat) : isSeparator n.repr = true := by
  rw [isSeparator, Nat.toList_repr, Bool.and_eq_true, Bool.not_eq_true', List.isEmpty_eq_false_iff,
    List.all_eq_true]
  refine ⟨?_, fun c hc => isPlain_iff.mpr ?_⟩
  · exact Nat.toDigits_ne_nil
  · have digit := Nat.isDigit_of_mem_toDigits (by decide) (by decide) hc
    refine ⟨?_, ?_, ?_, ?_, ?_, ?_, ?_⟩
    all_goals
      rintro rfl
      simp at digit

theorem nesting_repr (n depth : Nat) : nesting depth (marks n.repr) = some depth := by
  have level {cs : List Char} (h : ∀ c ∈ cs, c.isDigit = true) :
      nesting depth (cs.map .mark) = some depth := by
    induction cs with
    | nil => rfl
    | cons c cs ih =>
      obtain ⟨digit, rest⟩ := List.forall_mem_cons.mp h
      have opening : c ≠ '(' := by
        rintro rfl
        simp at digit
      have closing : c ≠ ')' := by
        rintro rfl
        simp at digit
      have kept : (Token.mark c).nest depth = some depth := by simp [Token.nest, opening, closing]
      rw [List.map_cons, nesting, kept]
      exact ih rest
  rw [marks, Nat.toList_repr]
  exact level fun c hc => Nat.isDigit_of_mem_toDigits (by decide) (by decide) hc

/-- A number is digits, with a sign in front of them where it is negative. -/
theorem reads_int (n : Int) (depth : Nat) : Reads depth depth [] (toString n).toList := by
  cases n with
  | ofNat n => exact reads_separator (isSeparator_repr n) (nesting_repr n depth)
  | negSucc n =>
    have sign : Reads depth depth [] ['-'] := ⟨[.mark '-'], rfl, rfl, by decide, rfl⟩
    have digits := sign.separated (isSeparator_repr (n + 1)) (nesting_repr (n + 1) depth)
      (reads_nil depth)
    simpa [toString, Int.repr] using digits

end Whole

end Comprehension.Lexing
