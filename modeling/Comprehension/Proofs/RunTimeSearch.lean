import Comprehension.Proofs.LexicalClosure
import Comprehension.Proofs.LiteralSearch
import Comprehension.Proofs.Resolution

/-!
Searches for a text that is known at run time only. The command escapes such a text itself, by calls
of `REPLACE` inside each other. Read as a database reads it, the text of the pattern has just the
value that a search for a constant is given right away.
-/
namespace Comprehension

namespace Formula

open Lexing (Token scan)

/-- What is left of a text once an occurrence that was found has `left` more characters. From there
on, occurrences are looked for from left to right and do not overlap. -/
def replacedFrom (search replacement : List Char) : Nat → List Char → List Char
  | _, [] => []
  | left + 1, _ :: rest => replacedFrom search replacement left rest
  | 0, c :: rest =>
    if search ≠ [] ∧ search.isPrefixOf (c :: rest) then
      replacement ++ replacedFrom search replacement (search.length - 1) rest
    else c :: replacedFrom search replacement 0 rest

/-- `REPLACE`: a text with another one in the place of every occurrence of a third. -/
def replaced (text search replacement : String) : String :=
  String.ofList (replacedFrom search.toList replacement.toList 0 text.toList)

inductive Word where
  | value (text : String)
  | replace
  | opening
  | closing
  | comma
  | plus
deriving DecidableEq

/-- The word that letters spell, if there are any. -/
def spelledWord? (letters : List Char) : Option (List Word) :=
  if letters = [] then some []
  else if letters = "REPLACE".toList then some [.replace]
  else none

def markWord? (c : Char) : Option (List Word) :=
  if c = '(' then some [.opening]
  else if c = ')' then some [.closing]
  else if c = ',' then some [.comma]
  else if c = '+' then some [.plus]
  else if c = ' ' then some []
  else none

/-- The words of tokens, after some letters. -/
def words (letters : List Char) : List Token → Option (List Word)
  | [] => spelledWord? letters
  | .name _ :: _ => none
  | .quoted text :: rest =>
    (spelledWord? letters).bind fun first => (words [] rest).map fun later =>
      first ++ .value text :: later
  | .mark c :: rest =>
    if c.isAlpha then words (letters ++ [c]) rest
    else (spelledWord? letters).bind fun first => (markWord? c).bind fun mark =>
      (words [] rest).map fun later => first ++ mark ++ later

/-- The words of a text. -/
def words? (text : String) : Option (List Word) := (scan text.toList).bind (words [])

/-- A parenthesis that is open, with what it is to be added to: a sum, or a call with the arguments
that are complete. -/
inductive Level where
  | sum (before : String)
  | call (before : String) (arguments : List String)

/-- What may follow. -/
inductive Phase where
  /-- A value, to be added to the ones before it. -/
  | expected (before : String)
  /-- The parenthesis of a call. -/
  | called (before : String)
  | complete (value : String)

structure Reader where
  phase : Phase
  levels : List Level

namespace Reader

def start : Reader := ⟨.expected "", []⟩

def step : Reader → Word → Option Reader
  | ⟨.expected before, levels⟩, .value text => some ⟨.complete (before ++ text), levels⟩
  | ⟨.expected before, levels⟩, .opening => some ⟨.expected "", .sum before :: levels⟩
  | ⟨.expected before, levels⟩, .replace => some ⟨.called before, levels⟩
  | ⟨.called before, levels⟩, .opening => some ⟨.expected "", .call before [] :: levels⟩
  | ⟨.complete value, levels⟩, .plus => some ⟨.expected value, levels⟩
  | ⟨.complete value, .call before arguments :: levels⟩, .comma =>
    some ⟨.expected "", .call before (arguments ++ [value]) :: levels⟩
  | ⟨.complete value, .sum before :: levels⟩, .closing => some ⟨.complete (before ++ value), levels⟩
  | ⟨.complete value, .call before [text, search] :: levels⟩, .closing =>
    some ⟨.complete (before ++ replaced text search value), levels⟩
  | _, _ => none

def run (reader : Reader) (ws : List Word) : Option Reader := ws.foldlM step reader

/-- The value, once all parentheses are closed. -/
def finish : Reader → Option String
  | ⟨.complete value, []⟩ => some value
  | _ => none

theorem run_cons (reader : Reader) (w : Word) (ws : List Word) :
    reader.run (w :: ws) = (reader.step w).bind (·.run ws) :=
  List.foldlM_cons

theorem run_append (reader : Reader) (ws ws' : List Word) :
    reader.run (ws ++ ws') = (reader.run ws).bind (·.run ws') :=
  List.foldlM_append

end Reader

/-- The words of a text with an operand in it, of which only the value is known. -/
def wordsAround (before operand after : String) : Option (List Word) :=
  (words? before).bind fun first => (words? after).map fun later =>
    first ++ .value operand :: later

/-- The value of a text with an operand in it: the text before the operand, the value of the operand
and the text behind it. -/
def valueAround (before operand after : String) : Option String :=
  (wordsAround before operand after).bind fun ws => (Reader.start.run ws).bind Reader.finish

/-- Whether words have a value, wherever they stand. -/
def Denote (ws : List Word) (value : String) : Prop :=
  ∀ before levels, Reader.run ⟨.expected before, levels⟩ ws =
    some ⟨.complete (before ++ value), levels⟩

theorem denote_value (text : String) : Denote [.value text] text := fun _ _ => rfl

/-- The words of two texts that are joined. -/
def sumWords (left right : List Word) : List Word :=
  Word.opening :: (left ++ Word.plus :: (right ++ [Word.closing]))

/-- The words of a call of `REPLACE`. -/
def replaceWords (text search replacement : List Word) : List Word :=
  Word.replace :: Word.opening ::
    (text ++ Word.comma :: (search ++ Word.comma :: (replacement ++ [Word.closing])))

theorem Denote.sum {ws ws' : List Word} {a b : String} (ha : Denote ws a) (hb : Denote ws' b) :
    Denote (sumWords ws ws') (a ++ b) := by
  intro before levels
  rw [sumWords, Reader.run_cons]
  simp only [Reader.step, Option.bind_some, Reader.run_append, Reader.run_cons, ha "" _]
  rw [hb]
  simp [Reader.run]

theorem Denote.replace {ws ws' ws'' : List Word} {a b c : String} (ha : Denote ws a)
    (hb : Denote ws' b) (hc : Denote ws'' c) :
    Denote (replaceWords ws ws' ws'') (replaced a b c) := by
  intro before levels
  simp only [replaceWords, Reader.run_cons, Reader.step, Option.bind_some, Reader.run_append, ha "" _, hb "" _,
    hc "" _]
  simp [Reader.run]

theorem Denote.finish {ws : List Word} {value : String} (h : Denote ws value) :
    (Reader.start.run ws).bind Reader.finish = some value := by
  rw [Reader.start, h]
  simp [Reader.finish]

end Formula

namespace Command

/-- Whether pieces are written as others among them with fixed texts on both sides. -/
def Framed (opening closing : List Char) (inner pieces : List Piece) : Prop :=
  ∀ before, written before pieces = opening ++ (written before inner ++ closing)

theorem framed_self (pieces : List Piece) : Framed [] [] pieces pieces := by
  intro before
  rw [List.nil_append, List.append_nil]

/-- Pieces without parameters are written the same everywhere. -/
theorem written_of_no_values {pieces : List Piece} (h : values pieces = []) (before : Nat) :
    written before pieces = written 0 pieces := by
  induction pieces with
  | nil => rfl
  | cons piece rest ih =>
    rw [written_cons, written_cons]
    cases piece with
    | parameter value => cases h
    | _ => exact congrArg _ (ih h)

theorem Framed.enclose {opening closing : List Char} {inner pieces front back : List Piece}
    (h : Framed opening closing inner pieces) (hf : values front = []) (hb : values back = []) :
    Framed (written 0 front ++ opening) (closing ++ written 0 back) inner
      (front ++ pieces ++ back) := by
  intro before
  rw [written_append, written_append, written_of_no_values hf, written_of_no_values hb, hf,
    List.length_nil, Nat.add_zero, h]
  simp only [List.append_assoc]

/-- The pieces between two texts that are joined. -/
def plusPieces : List Piece := [Piece.text " ", Piece.concat, Piece.text " "]

/-- The pieces of two texts that are joined. -/
def sumPieces (left right : List Piece) : List Piece :=
  [Piece.text "("] ++ (left ++ plusPieces ++ right) ++ [Piece.text ")"]

section Sums

variable {opening closing : List Char} {inner left right : List Piece}

theorem Framed.sumLeft (h : Framed opening closing inner left) (hr : values right = []) :
    Framed (written 0 [Piece.text "("] ++ opening)
      (closing ++ written 0 (plusPieces ++ right ++ [Piece.text ")"])) inner
      (sumPieces left right) := by
  have around : Framed _ _ inner
      ([Piece.text "("] ++ left ++ (plusPieces ++ right ++ [Piece.text ")"])) :=
    h.enclose rfl (by simp [plusPieces, hr])
  simpa [sumPieces] using around

theorem Framed.sumRight (h : Framed opening closing inner right) (hl : values left = []) :
    Framed (written 0 ([Piece.text "("] ++ left ++ plusPieces) ++ opening)
      (closing ++ written 0 [Piece.text ")"]) inner (sumPieces left right) := by
  have around : Framed _ _ inner
      ([Piece.text "("] ++ left ++ plusPieces ++ right ++ [Piece.text ")"]) :=
    h.enclose (by simp [plusPieces, hl]) rfl
  simpa [sumPieces] using around

end Sums

end Command

namespace Sql.Expr

/-- Whether an expression, wherever and however it is resolved, becomes one of some others. -/
def Becomes (e : Expr) (others : Expr → Prop) : Prop :=
  ∀ r again rows position tables f e' tables' f',
    e.resolve r again rows position tables f = .ok ((e', tables'), f') → others e'

/-- Whether an expression is one value, and no predicate. -/
def IsPlain (e : Expr) : Prop := e.isEntity = false ∧ e.isPredicate = false

theorem IsPlain.adapted_value {e : Expr} (h : e.IsPlain) (native : Bool) :
    adapted native .value e = .ok e :=
  adapted_of_fits fun _ => h.2

theorem IsPlain.adapted_singleValue {e : Expr} (h : e.IsPlain) (native : Bool) :
    adapted native .singleValue e = .ok e :=
  adapted_of_fits ⟨h.1, fun _ => h.2⟩

theorem becomes_text (s : String) : (text s).Becomes (· = text s) := by
  intro r again rows position tables f e' tables' f' h
  obtain ⟨rfl, -, -⟩ := Joining.pure_eq_ok.mp h
  rfl

/-- Whether an expression can be resolved to another one, as a single value. -/
def ResolvesTo (e a : Expr) : Prop :=
  ∃ r again rows tables f tables' f',
    Resolver.fit r .singleValue (e.resolve r again rows .singleValue) tables f =
      .ok ((a, tables'), f')

theorem becomes_likeEscape (e : Expr) :
    (likeEscape e).Becomes fun e' => ∃ a, e.ResolvesTo a ∧ e' = likeEscape a := by
  intro r again rows position tables f e' tables' f' h
  rw [Expr.resolve] at h
  obtain ⟨a, tables₁, f₁, resolved, h⟩ := Joining.bind_eq_ok.mp h
  obtain ⟨rfl, -, -⟩ := Joining.pure_eq_ok.mp h
  exact ⟨a, ⟨_, _, _, _, _, _, _, resolved⟩, rfl⟩

/-- Texts that are joined are resolved one by one. -/
theorem Becomes.concat {left right : Expr} {P Q : Expr → Prop} (hl : left.Becomes P)
    (hr : right.Becomes Q) (plainLeft : ∀ e, P e → e.IsPlain) (plainRight : ∀ e, Q e → e.IsPlain) :
    (Expr.concat left right).Becomes fun e' => ∃ l r, P l ∧ Q r ∧ e' = Expr.concat l r := by
  intro r again rows position tables f e' tables' f' h
  rw [Expr.concat, Expr.binaryOf, Expr.resolve] at h
  obtain ⟨left₁, tables₁, f₁, resolvedLeft, h⟩ := Joining.bind_eq_ok.mp h
  obtain ⟨right₁, tables₂, f₂, resolvedRight, h⟩ := Joining.bind_eq_ok.mp h
  obtain ⟨⟨left₂, right₂⟩, tables₃, f₃, compared, h⟩ := Joining.bind_eq_ok.mp h
  obtain ⟨compared, rfl, rfl⟩ := Joining.lift_eq_ok.mp compared
  obtain ⟨left₃, tables₄, f₄, fitsLeft, h⟩ := Joining.bind_eq_ok.mp h
  obtain ⟨right₃, tables₅, f₅, fitsRight, h⟩ := Joining.bind_eq_ok.mp h
  obtain ⟨rfl, -, -⟩ := Joining.pure_eq_ok.mp h
  obtain ⟨l, readLeft, valueLeft⟩ := Resolver.fit_eq_ok.mp resolvedLeft
  obtain ⟨r', readRight, valueRight⟩ := Resolver.fit_eq_ok.mp resolvedRight
  have isLeft := hl _ _ _ _ _ _ _ _ _ readLeft
  have isRight := hr _ _ _ _ _ _ _ _ _ readRight
  rw [(plainLeft l isLeft).adapted_value] at valueLeft
  rw [(plainRight r' isRight).adapted_value] at valueRight
  cases valueLeft
  cases valueRight
  cases compared
  obtain ⟨_, same, singleLeft⟩ := Resolver.fit_eq_ok.mp fitsLeft
  obtain ⟨rfl, -, -⟩ := Joining.pure_eq_ok.mp same
  obtain ⟨_, same, singleRight⟩ := Resolver.fit_eq_ok.mp fitsRight
  obtain ⟨rfl, -, -⟩ := Joining.pure_eq_ok.mp same
  rw [(plainLeft _ isLeft).adapted_singleValue] at singleLeft
  rw [(plainRight _ isRight).adapted_singleValue] at singleRight
  cases singleLeft
  cases singleRight
  exact ⟨_, _, isLeft, isRight, rfl⟩

end Sql.Expr

namespace Method.Pattern

open Command (Piece Framed written)
open Formula (Word Denote)
open Sql (Expr)

/-- One character is found wherever it stands. -/
theorem replacedFrom_singleton (c : Char) (replacement text : List Char) :
    Formula.replacedFrom [c] replacement 0 text = substituted c replacement text := by
  induction text with
  | nil => rfl
  | cons d text ih =>
    by_cases same : d = c
    · simp [Formula.replacedFrom, substituted, same] at ih ⊢
      exact ih
    · simp [Formula.replacedFrom, substituted, same, Ne.symm same] at ih ⊢
      exact ih

/-- Calls around words that replace some characters by themselves behind the escape character, the
first character innermost. -/
def escapeWords (operand : List Word) (characters : List Char) : List Word :=
  characters.foldl (fun ws c => Formula.replaceWords ws [Word.value (String.singleton c)]
    [Word.value (String.ofList [escapeChar, c])]) operand

theorem denote_escapeWords (characters : List Char) {operand : List Word} {text : List Char}
    (h : Denote operand (String.ofList text)) :
    Denote (escapeWords operand characters)
      (String.ofList
        (characters.foldl (fun text c => substituted c [escapeChar, c] text) text)) := by
  induction characters generalizing operand text with
  | nil => exact h
  | cons c characters ih =>
    refine ih ?_
    have called := h.replace (Formula.denote_value (String.singleton c))
      (Formula.denote_value (String.ofList [escapeChar, c]))
    simpa [Formula.replaced, replacedFrom_singleton] using called

theorem denote_escaped (text : String) :
    Denote (escapeWords [.value text] wildcards) (escape text) := by
  have operand : Denote [.value text] (String.ofList text.toList) := by
    rw [String.ofList_toList]
    exact Formula.denote_value text
  rw [escape, escapeChars_eq_foldl]
  exact denote_escapeWords wildcards operand

/-- The calls that escape a text, up to the text. -/
def escapeOpening : String := "REPLACE(REPLACE(REPLACE(REPLACE("

/-- The calls that escape a text, from the text on. -/
def escapeClosing : String := ",'\\','\\\\'),'%','\\%'),'_','\\_'),'[','\\[')"

theorem framed_escapePieces (pieces : List Piece) :
    Framed escapeOpening.toList escapeClosing.toList pieces (Command.escapePieces pieces) :=
  ((((Command.framed_self pieces).enclose rfl rfl).enclose rfl rfl).enclose rfl rfl).enclose rfl rfl

namespace Anchor

/-- The text of a pattern before the text that is escaped in it. -/
def opening : Anchor → String
  | anywhere => "(('%' + " ++ escapeOpening
  | start => "(" ++ escapeOpening
  | finish => "('%' + " ++ escapeOpening

/-- The text of a pattern behind the text that is escaped in it. -/
def closing : Anchor → String
  | anywhere => escapeClosing ++ ") + '%')"
  | start => escapeClosing ++ " + '%')"
  | finish => escapeClosing ++ ")"

/-- The words of a pattern around a text. -/
def formula (anchor : Anchor) (text : String) : List Word :=
  let percent := [Word.value "%"]
  let escaped := escapeWords [Word.value text] wildcards
  match anchor with
  | anywhere => Formula.sumWords (Formula.sumWords percent escaped) percent
  | start => Formula.sumWords escaped percent
  | finish => Formula.sumWords percent escaped

theorem denote_formula (anchor : Anchor) (text : String) :
    Denote (anchor.formula text) (anchor.pattern (escape text)) := by
  have percent := Formula.denote_value "%"
  have escaped := denote_escaped text
  cases anchor with
  | anywhere => exact (percent.sum escaped).sum percent
  | start => exact escaped.sum percent
  | finish => exact percent.sum escaped

theorem wordsAround_eq (anchor : Anchor) (text : String) :
    Formula.wordsAround anchor.opening text anchor.closing = some (anchor.formula text) := by
  cases anchor <;> rfl

theorem valueAround_eq (anchor : Anchor) (text : String) :
    Formula.valueAround anchor.opening text anchor.closing =
      some (anchor.pattern (escape text)) := by
  rw [Formula.valueAround, wordsAround_eq]
  exact (anchor.denote_formula text).finish

theorem pieces_concat {native : Bool} {left right : Expr} {l r : List Piece}
    (hl : left.pieces native .projected = .ok l) (hr : right.pieces native .projected = .ok r) :
    (Expr.concat left right).pieces native .projected = .ok (Command.sumPieces l r) := by
  rw [Expr.concat, Expr.binaryOf, Expr.pieces, hl, hr]
  rfl

theorem framed_expression (anchor : Anchor) {native : Bool} {e : Expr} {pieces : List Piece}
    (h : e.pieces native .projected = .ok pieces) :
    ∃ ps, (anchor.expression (.likeEscape e)).pieces native .projected = .ok ps ∧
      Framed anchor.opening.toList anchor.closing.toList pieces ps := by
  have percent : (Expr.text "%").pieces native .projected = .ok [Piece.literal "%"] := rfl
  have escaped : (Expr.likeEscape e).pieces native .projected =
      .ok (Command.escapePieces pieces) := by
    rw [Expr.pieces, h]
    rfl
  have framed := framed_escapePieces pieces
  cases anchor with
  | anywhere =>
    exact ⟨_, pieces_concat (pieces_concat percent escaped) percent,
      (framed.sumRight rfl).sumLeft rfl⟩
  | start => exact ⟨_, pieces_concat escaped percent, framed.sumLeft rfl⟩
  | finish => exact ⟨_, pieces_concat percent escaped, framed.sumRight rfl⟩

/-- Resolution leaves the pattern around a text as it is. -/
theorem becomes_expression (anchor : Anchor) (e : Expr) :
    (anchor.expression (.likeEscape e)).Becomes fun e' =>
      ∃ a, e.ResolvesTo a ∧ e' = anchor.expression (.likeEscape a) := by
  have percent := Expr.becomes_text "%"
  have escaped := Expr.becomes_likeEscape e
  have plainPercent (e' : Expr) (same : e' = .text "%") : e'.IsPlain := by
    subst same
    exact ⟨rfl, rfl⟩
  have plainEscaped (e' : Expr) (same : ∃ a, e.ResolvesTo a ∧ e' = .likeEscape a) : e'.IsPlain := by
    obtain ⟨a, -, rfl⟩ := same
    exact ⟨rfl, rfl⟩
  intro r again rows position tables f e' tables' f' h
  cases anchor with
  | anywhere =>
    have front := percent.concat escaped plainPercent plainEscaped
    obtain ⟨_, _, ⟨_, _, rfl, ⟨a, resolved, rfl⟩, rfl⟩, rfl, rfl⟩ :=
      front.concat percent (by rintro _ ⟨_, _, -, -, rfl⟩; exact ⟨rfl, rfl⟩) plainPercent
        _ _ _ _ _ _ _ _ _ h
    exact ⟨a, resolved, rfl⟩
  | start =>
    obtain ⟨_, _, ⟨a, resolved, rfl⟩, rfl, rfl⟩ :=
      escaped.concat percent plainEscaped plainPercent _ _ _ _ _ _ _ _ _ h
    exact ⟨a, resolved, rfl⟩
  | finish =>
    obtain ⟨_, _, rfl, ⟨a, resolved, rfl⟩, rfl⟩ :=
      percent.concat escaped plainPercent plainEscaped _ _ _ _ _ _ _ _ _ h
    exact ⟨a, resolved, rfl⟩

end Anchor

theorem search_unknown (anchor : Anchor) {value argument : Expr} {signature : Signature}
    {type : ValueType} {call : String} (notNull : ∀ t, argument ≠ .constant .null t)
    (notText : ∀ s t, argument ≠ .constant (.string s) t) :
    search anchor ⟨signature, some value, [argument], type, call⟩ =
      .ok (.like value (anchor.expression (.likeEscape argument))) := by
  cases argument with
  | constant v t =>
    cases v with
    | null => exact absurd rfl (notNull t)
    | string s => exact absurd rfl (notText s t)
    | _ => rfl
  | _ => rfl

/-- A search for a text that is known at run time only is for the pattern that a search for the same
text as a constant is given. The pattern is built around the argument and resolved around it. It is
written as the text of the argument between two fixed texts, and these give a text in between the
value of the constant pattern. -/
theorem search_escapes_at_run_time (anchor : Anchor) (value argument : Expr) (callType : ValueType)
    (call : String) (notNull : ∀ t, argument ≠ .constant .null t)
    (notText : ∀ s t, argument ≠ .constant (.string s) t) :
    Registry.defaults.transform
        { signature := .method "String" anchor.method ["String"]
          object := some value
          arguments := [argument]
          type := callType
          text := call } =
      .ok (.like value (anchor.expression (.likeEscape argument))) ∧
    (anchor.expression (.likeEscape argument)).Becomes (fun resolved =>
      ∃ a, argument.ResolvesTo a ∧ resolved = anchor.expression (.likeEscape a)) ∧
    (∀ native a pieces, Expr.pieces native .projected a = .ok pieces →
      ∃ ps, (anchor.expression (.likeEscape a)).pieces native .projected = .ok ps ∧
        Framed anchor.opening.toList anchor.closing.toList pieces ps) ∧
    ∀ searched type, ∃ pattern,
      Registry.defaults.transform
          { signature := .method "String" anchor.method ["String"]
            object := some value
            arguments := [.constant (.string searched) type]
            type := callType
            text := call } =
        .ok (.like value (.constant (.string pattern) .string)) ∧
      Formula.valueAround anchor.opening searched anchor.closing = some pattern := by
  refine ⟨?_, anchor.becomes_expression argument, fun native a pieces written => ?_,
    fun searched type => ⟨anchor.pattern (escape searched), ?_, ?_⟩⟩
  · rw [Registry.transform, anchor.get?_method]
    exact search_unknown anchor notNull notText
  · exact anchor.framed_expression written
  · rw [Registry.transform, anchor.get?_method]
    rfl
  · exact anchor.valueAround_eq searched

/-- A search for the name of a category that turns out to be `50%`. -/
theorem categorySearch_escapes :
    let title : Expr := .column ⟨.string, "t0", "Title", false⟩
    let category : Expr := .column ⟨.string, "t1", "Name", false⟩
    let pattern := Anchor.anywhere.expression (.likeEscape category)
    Registry.defaults.transform ⟨.method "String" "Contains" ["String"], some title, [category],
      .boolean, "m.Title.Contains(k.Name)"⟩ = .ok (.like title pattern) ∧
    (∃ pieces, pattern.pieces false .projected = .ok pieces ∧ String.ofList (written 0 pieces) =
      "(('%' + REPLACE(REPLACE(REPLACE(REPLACE([t1].[Name],'\\','\\\\'),'%','\\%'),'_','\\_')" ++
        ",'[','\\[')) + '%')") ∧
    Registry.defaults.transform ⟨.method "String" "Contains" ["String"], some title,
      [.constant (.string "50%") .string], .boolean, "m.Title.Contains(k.Name)"⟩ =
        .ok (.like title (.constant (.string "%50\\%%") .string)) ∧
    Formula.valueAround Anchor.anywhere.opening "50%" Anchor.anywhere.closing =
      some "%50\\%%" := by
  intro title category pattern
  obtain ⟨made, -, framed, known⟩ := search_escapes_at_run_time .anywhere title category .boolean
    "m.Title.Contains(k.Name)" (by simp [category]) (by simp [category])
  obtain ⟨pieces, rendered, around⟩ := framed false category _ rfl
  obtain ⟨text, constant, value⟩ := known "50%" .string
  have evaluated : Formula.valueAround Anchor.anywhere.opening "50%" Anchor.anywhere.closing =
      some "%50\\%%" := by decide +kernel
  obtain rfl : text = "%50\\%%" := Option.some.inj (value.symm.trans evaluated)
  refine ⟨made, ⟨pieces, rendered, ?_⟩, constant, value⟩
  rw [around 0]
  decide +kernel

end Method.Pattern

end Comprehension
