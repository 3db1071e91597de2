import Comprehension.Proofs.Outcome
import Mathlib.Data.List.TakeWhile

/-!
The grammar of signatures. A text is a signature when it is spelled by the rules of the grammar, and
the reader accepts just these texts. On every other text it stops at one place: where an identifier
is missing, where the dot is missing, behind a complete parameter list that is not the end, or else
right behind the name. The parsers that the reader is put together from go back where a parameter
list breaks off, so each is first related to the rule of the grammar that it reads.
-/
namespace Comprehension

namespace Text

/-- Whether a text does not start with a character of a class. -/
def StartsOutside (accepts : Char → Bool) (cs : List Char) : Prop :=
  ∀ c ∈ cs.head?, accepts c = false

/-- Whether a text is some characters of a class. -/
def ConsistsOf (accepts : Char → Bool) (cs : List Char) : Prop :=
  cs ≠ [] ∧ ∀ c ∈ cs, accepts c = true

instance (accepts : Char → Bool) (cs : List Char) : Decidable (ConsistsOf accepts cs) :=
  decidable_of_iff ((!cs.isEmpty && cs.all accepts) = true) (by simp [ConsistsOf])

/-- Whether a text is what another one is without the white space around it. -/
structure Trims (cs inner : List Char) : Prop where
  around : ∃ before after, (∀ c ∈ before, isBlank c = true) ∧ (∀ c ∈ after, isBlank c = true) ∧
    cs = before ++ (inner ++ after)
  first : StartsOutside isBlank inner
  last : StartsOutside isBlank inner.reverse

section Runs

variable {accepts : Char → Bool} {taken rest cs : List Char}

theorem startsOutside_nil : StartsOutside accepts [] := by simp [StartsOutside]

theorem startsOutside_cons {c : Char} : StartsOutside accepts (c :: cs) ↔ accepts c = false := by
  simp [StartsOutside]

theorem startsOutside_dropWhile (accepts : Char → Bool) (cs : List Char) :
    StartsOutside accepts (cs.dropWhile accepts) := by
  have first := cs.head?_dropWhile_not accepts
  intro c hc
  rwa [Option.mem_def.mp hc] at first

theorem StartsOutside.takeWhile (h : StartsOutside accepts rest) : rest.takeWhile accepts = [] := by
  cases rest with
  | nil => rfl
  | cons c rest => simp [startsOutside_cons.mp h]

theorem StartsOutside.dropWhile (h : StartsOutside accepts rest) :
    rest.dropWhile accepts = rest := by
  cases rest with
  | nil => rfl
  | cons c rest => simp [startsOutside_cons.mp h]

/-- A text ends where a character of another class follows. -/
theorem takeWhile_append (all : ∀ c ∈ taken, accepts c = true) (h : StartsOutside accepts rest) :
    (taken ++ rest).takeWhile accepts = taken := by
  rw [List.takeWhile_append_of_pos all, h.takeWhile, List.append_nil]

theorem dropWhile_append (all : ∀ c ∈ taken, accepts c = true) (h : StartsOutside accepts rest) :
    (taken ++ rest).dropWhile accepts = rest := by
  rw [List.dropWhile_append_of_pos all, h.dropWhile]

theorem ConsistsOf.startsOutside {other : Char → Bool} (h : ConsistsOf accepts taken)
    (apart : ∀ c, accepts c = true → other c = false) (rest : List Char) :
    StartsOutside other (taken ++ rest) := by
  obtain ⟨some, all⟩ := h
  cases taken with
  | nil => exact absurd rfl some
  | cons c taken => exact startsOutside_cons.mpr (apart c (all c List.mem_cons_self))

end Runs

section Trimming

variable {cs inner : List Char}

theorem trims_trim (cs : List Char) : Trims cs (trim cs) := by
  have front : cs = cs.takeWhile isBlank ++ trimStart cs := List.takeWhile_append_dropWhile.symm
  have back : trimStart cs = trim cs ++ ((trimStart cs).reverse.takeWhile isBlank).reverse := by
    have whole : (trimStart cs).reverse.takeWhile isBlank ++ trimStart (trimStart cs).reverse =
        (trimStart cs).reverse := List.takeWhile_append_dropWhile
    rw [trim, ← List.reverse_append, whole, List.reverse_reverse]
  refine ⟨⟨cs.takeWhile isBlank, ((trimStart cs).reverse.takeWhile isBlank).reverse,
    fun c hc => List.mem_takeWhile_imp hc,
    fun c hc => List.mem_takeWhile_imp (List.mem_reverse.mp hc), ?_⟩, ?_, ?_⟩
  · rw [← back, ← front]
  · -- The first character of what is left is the first one behind the white space in front.
    cases left : trim cs with
    | nil => exact startsOutside_nil
    | cons c rest =>
      have first := startsOutside_dropWhile isBlank cs
      rw [← trimStart, back, left, List.cons_append, startsOutside_cons] at first
      exact startsOutside_cons.mpr first
  · rw [trim, List.reverse_reverse]
    exact startsOutside_dropWhile isBlank _

theorem trimStart_append {before rest : List Char} (blank : ∀ c ∈ before, isBlank c = true) :
    trimStart (before ++ rest) = trimStart rest :=
  List.dropWhile_append_of_pos blank

/-- There is only one text that is left. -/
theorem Trims.eq_trim (h : Trims cs inner) : trim cs = inner := by
  obtain ⟨⟨before, after, blankBefore, blankAfter, rfl⟩, first, last⟩ := h
  cases inner with
  | nil =>
    have nothing : trimStart (before ++ ([] ++ after)) = [] := by
      rw [List.nil_append, trimStart, List.dropWhile_eq_nil_iff]
      exact List.forall_mem_append.mpr ⟨blankBefore, blankAfter⟩
    rw [trim, nothing]
    rfl
  | cons c inner =>
    have front : trimStart (before ++ (c :: inner ++ after)) = c :: inner ++ after := by
      rw [trimStart_append blankBefore]
      exact StartsOutside.dropWhile (startsOutside_cons.mpr (startsOutside_cons.mp first))
    have behind : trimStart (after.reverse ++ (c :: inner).reverse) = (c :: inner).reverse := by
      rw [trimStart_append fun c hc => blankAfter c (List.mem_reverse.mp hc)]
      exact last.dropWhile
    rw [trim, front, List.reverse_append, behind, List.reverse_reverse]

end Trimming

end Text

namespace Method

open Outcome (Ends)
open Text (ConsistsOf Parser StartsOutside Trims)
open Text.Parser (blanks delimited mark moreItems optional preceded run separatedList)

namespace Signature

def IsIdentifier (cs : List Char) : Prop := ConsistsOf isIdentifierChar cs

def IsTypeName (cs : List Char) : Prop := ConsistsOf isTypeChar cs

/-- Whether a text is plain blanks only. -/
def IsBlank (cs : List Char) : Prop := ∀ c ∈ cs, Text.isPlainBlank c = true

instance (cs : List Char) : Decidable (IsIdentifier cs) :=
  inferInstanceAs (Decidable (ConsistsOf _ _))

instance (cs : List Char) : Decidable (IsTypeName cs) :=
  inferInstanceAs (Decidable (ConsistsOf _ _))

instance (cs : List Char) : Decidable (IsBlank cs) :=
  decidable_of_iff (cs.all Text.isPlainBlank = true) List.all_eq_true

/-- A type with blanks around it. -/
inductive Parameter : List Char → String → Prop where
  | type {before type after : List Char} (blankBefore : IsBlank before) (isType : IsTypeName type)
      (blankAfter : IsBlank after) : Parameter (before ++ (type ++ after)) (String.ofList type)

/-- Parameters with commas between them. -/
inductive Parameters : List Char → List String → Prop where
  | last {cs : List Char} {type : String} (only : Parameter cs type) : Parameters cs [type]
  | more {cs rest : List Char} {type : String} {types : List String} (first : Parameter cs type)
      (later : Parameters rest types) : Parameters (cs ++ ',' :: rest) (type :: types)

/-- A complete parameter list. Between the parentheses there is nothing at all, or there are
parameters. -/
inductive ParameterList : List Char → List String → Prop where
  | empty {blanks : List Char} (blank : IsBlank blanks) : ParameterList (blanks ++ ['(', ')']) []
  | filled {blanks inside : List Char} {types : List String} (blank : IsBlank blanks)
      (parameters : Parameters inside types) :
      ParameterList (blanks ++ '(' :: (inside ++ [')'])) types

/-- The texts of a signature. -/
inductive Spells : List Char → Signature → Prop where
  | property {type name : List Char} (isType : IsIdentifier type) (isName : IsIdentifier name) :
      Spells (type ++ '.' :: name) (property (String.ofList type) (String.ofList name))
  | method {type name list : List Char} {types : List String} (isType : IsIdentifier type)
      (isName : IsIdentifier name) (parameters : ParameterList list types) :
      Spells (type ++ '.' :: (name ++ list))
        (method (String.ofList type) (String.ofList name) types)

/-- Where a text stops being a signature: what is left of it there, and the word for what is wrong
with that. -/
inductive Stops : List Char → List Char → String → Prop where
  | noType {rest : List Char} (missing : StartsOutside isIdentifierChar rest) :
      Stops rest rest "TakeWhile1"
  | noDot {type rest : List Char} (isType : IsIdentifier type)
      (whole : StartsOutside isIdentifierChar rest) (missing : rest.head? ≠ some '.') :
      Stops (type ++ rest) rest "Char"
  | noName {type rest : List Char} (isType : IsIdentifier type)
      (missing : StartsOutside isIdentifierChar rest) :
      Stops (type ++ '.' :: rest) rest "TakeWhile1"
  | afterList {type name list rest : List Char} {types : List String} (isType : IsIdentifier type)
      (isName : IsIdentifier name) (parameters : ParameterList list types) (more : rest ≠ []) :
      Stops (type ++ '.' :: (name ++ (list ++ rest))) rest "Eof"
  | afterName {type name rest : List Char} (isType : IsIdentifier type) (isName : IsIdentifier name)
      (whole : StartsOutside isIdentifierChar rest) (more : rest ≠ [])
      (incomplete : ∀ list types later, ParameterList list types → rest ≠ list ++ later) :
      Stops (type ++ '.' :: (name ++ rest)) rest "Eof"

section Characters

theorem isPlainBlank_iff {c : Char} :
    Text.isPlainBlank c = true ↔ c = ' ' ∨ c = '\t' ∨ c = '\r' ∨ c = '\n' := by
  simp [Text.isPlainBlank, or_assoc]

/-- The characters with a meaning of their own are in no name. -/
theorem isTypeChar_of_mark : ∀ c ∈ ['.', '(', ')', ',', ' ', '\t', '\r', '\n'],
    isTypeChar c = false := by
  intro c mem
  have outside : ['.', '(', ')', ',', ' ', '\t', '\r', '\n'].all (!isTypeChar ·) = true := by decide
  simpa using List.all_eq_true.mp outside c mem

theorem isIdentifierChar_of_mark {c : Char}
    (h : c ∈ ['.', '(', ')', ',', ' ', '\t', '\r', '\n']) : isIdentifierChar c = false := by
  have outside := isTypeChar_of_mark c h
  rw [isTypeChar, Bool.or_assoc, Bool.or_eq_false_iff] at outside
  exact outside.1

theorem isTypeChar_of_blank {c : Char} (h : Text.isPlainBlank c = true) : isTypeChar c = false := by
  rcases isPlainBlank_iff.mp h with rfl | rfl | rfl | rfl <;> exact isTypeChar_of_mark _ (by decide)

theorem isPlainBlank_of_typeChar (c : Char) (h : isTypeChar c = true) :
    Text.isPlainBlank c = false := by
  refine Bool.eq_false_iff.mpr fun blank => ?_
  rw [isTypeChar_of_blank blank] at h
  cases h

end Characters

section Reading

variable {accepts : Char → Bool} {cs taken rest : List Char}

theorem run_of_startsOutside (h : StartsOutside accepts cs) :
    (run accepts).outcome cs = .error ⟨cs, .run⟩ := by
  refine Parser.outcome_eq_error.mpr ?_
  unfold run
  rw [h.takeWhile]

theorem run_append (h : ConsistsOf accepts taken) (outside : StartsOutside accepts rest) :
    (run accepts).outcome (taken ++ rest) = .ok (taken, rest) := by
  have behind := Text.dropWhile_append h.2 outside
  refine Parser.outcome_eq_ok.mpr ⟨⟨_, List.dropWhile_suffix accepts⟩, ?_, behind⟩
  unfold run
  rw [Text.takeWhile_append h.2 outside]
  cases taken with
  | nil => exact absurd rfl h.1
  | cons c taken => rfl

/-- A run is there or not, and it is the longest one. -/
theorem startsOutside_or_append (accepts : Char → Bool) (cs : List Char) :
    StartsOutside accepts cs ∨ ∃ taken rest, ConsistsOf accepts taken ∧
      StartsOutside accepts rest ∧ cs = taken ++ rest := by
  have outside := Text.startsOutside_dropWhile accepts cs
  have whole : cs.takeWhile accepts ++ cs.dropWhile accepts = cs := List.takeWhile_append_dropWhile
  by_cases none : cs.takeWhile accepts = []
  · rw [none, List.nil_append] at whole
    exact .inl (whole ▸ outside)
  · exact .inr ⟨_, _, ⟨none, fun _ hc => List.mem_takeWhile_imp hc⟩, outside, whole.symm⟩

theorem blanks_eq_ok : blanks.outcome cs = .ok (taken, rest) ↔
    IsBlank taken ∧ StartsOutside Text.isPlainBlank rest ∧ cs = taken ++ rest := by
  constructor
  · rintro ⟨⟩
    exact ⟨fun _ hc => List.mem_takeWhile_imp hc, Text.startsOutside_dropWhile _ cs,
      List.takeWhile_append_dropWhile.symm⟩
  · rintro ⟨blank, outside, rfl⟩
    have read : blanks.outcome (taken ++ rest) = .ok ((taken ++ rest).takeWhile Text.isPlainBlank,
      (taken ++ rest).dropWhile Text.isPlainBlank) := rfl
    rw [read, Text.takeWhile_append blank outside, Text.dropWhile_append blank outside]

theorem mark_cons (c : Char) (rest : List Char) : (mark c).outcome (c :: rest) = .ok (c, rest) := by
  refine Parser.outcome_eq_ok.mpr ⟨⟨rest, List.suffix_cons c rest⟩, ?_, rfl⟩
  exact if_pos rfl

theorem mark_of_head? {c : Char} (missing : cs.head? ≠ some c) :
    (mark c).outcome cs = .error ⟨cs, .mark⟩ := by
  refine Parser.outcome_eq_error.mpr ?_
  cases cs with
  | nil => rfl
  | cons d cs => exact if_neg fun same => missing (congrArg some same)

theorem mark_eq_ok {c d : Char} :
    (mark c).outcome cs = .ok (d, rest) ↔ d = c ∧ cs = c :: rest := by
  constructor
  · intro h
    by_cases there : cs.head? = some c
    · obtain ⟨later, rfl⟩ := List.head?_eq_some_iff.mp there
      rw [mark_cons] at h
      cases h
      exact ⟨rfl, rfl⟩
    · rw [mark_of_head? there] at h
      cases h
  · rintro ⟨rfl, rfl⟩
    exact mark_cons d rest

section Delimited

variable {α β γ : Type} {before : Parser β} {p : Parser α} {after : Parser γ} {a : α} {b : β}
  {inner : List Char}

theorem delimited_eq_ok : (delimited before p after).outcome cs = .ok (a, rest) ↔
    ∃ b inner behind c, before.outcome cs = .ok (b, inner) ∧ p.outcome inner = .ok (a, behind) ∧
      after.outcome behind = .ok (c, rest) := by
  rw [Parser.outcome_delimited]
  constructor
  · intro h
    obtain ⟨⟨b, inner⟩, first, h⟩ := Outcome.bind_eq_ok.mp h
    obtain ⟨⟨a', behind⟩, second, h⟩ := Outcome.bind_eq_ok.mp h
    obtain ⟨⟨c, rest'⟩, third, h⟩ := Outcome.bind_eq_ok.mp h
    cases Outcome.pure_eq_ok.mp h
    exact ⟨b, inner, behind, c, first, second, third⟩
  · rintro ⟨b, inner, behind, c, first, second, third⟩
    refine Outcome.bind_eq_ok.mpr ⟨(b, inner), first, ?_⟩
    refine Outcome.bind_eq_ok.mpr ⟨(a, behind), second, ?_⟩
    exact Outcome.bind_eq_ok.mpr ⟨(c, rest), third, rfl⟩

theorem delimited_of_error {refusal : Text.Refusal} (first : before.outcome cs = .ok (b, inner))
    (refused : p.outcome inner = .error refusal) :
    (delimited before p after).outcome cs = .error refusal := by
  rw [Parser.outcome_delimited, first]
  change (p.outcome inner >>= _) = _
  rw [refused]
  rfl

end Delimited

section Words

variable {word : String}

theorem word_of_startsOutside (missing : StartsOutside accepts cs) :
    ((run accepts).map String.ofList).outcome cs = .error ⟨cs, .run⟩ := by
  rw [Parser.outcome_map, run_of_startsOutside missing]
  rfl

theorem word_append (h : ConsistsOf accepts taken) (outside : StartsOutside accepts rest) :
    ((run accepts).map String.ofList).outcome (taken ++ rest) =
      .ok (String.ofList taken, rest) := by
  rw [Parser.outcome_map, run_append h outside]
  rfl

theorem exists_of_word (h : ((run accepts).map String.ofList).outcome cs = .ok (word, rest)) :
    ∃ taken, ConsistsOf accepts taken ∧ cs = taken ++ rest ∧ String.ofList taken = word := by
  rw [Parser.outcome_map] at h
  obtain ⟨⟨taken, rest'⟩, found, h⟩ := Outcome.bind_eq_ok.mp h
  cases Outcome.pure_eq_ok.mp h
  rcases startsOutside_or_append accepts cs with missing | ⟨taken', rest', consists, outside, rfl⟩
  · rw [run_of_startsOutside missing] at found
    cases found
  · rw [run_append consists outside] at found
    cases found
    exact ⟨taken, consists, rfl, rfl⟩

end Words

end Reading

section Parameters

variable {cs inside rest : List Char} {type : String} {types : List String}

theorem IsBlank.startsOutside {blanks : List Char} (blank : IsBlank blanks)
    (h : StartsOutside isTypeChar rest) : StartsOutside isTypeChar (blanks ++ rest) := by
  cases blanks with
  | nil => exact h
  | cons c blanks =>
    exact Text.startsOutside_cons.mpr (isTypeChar_of_blank (blank c List.mem_cons_self))

/-- Blanks in front of a parameter belong to it. -/
theorem Parameter.spaced (h : Parameter cs type) {blanks : List Char} (blank : IsBlank blanks) :
    Parameter (blanks ++ cs) type := by
  obtain ⟨blankBefore, isType, blankAfter⟩ := h
  rw [← List.append_assoc]
  exact .type (List.forall_mem_append.mpr ⟨blank, blankBefore⟩) isType blankAfter

theorem parameter_of_outcome (h : parameter.outcome cs = .ok (type, rest)) :
    ∃ text, Parameter text type ∧ StartsOutside Text.isPlainBlank rest ∧ cs = text ++ rest := by
  obtain ⟨before, inner, behind, after, first, named, last⟩ := delimited_eq_ok.mp h
  obtain ⟨blankBefore, -, rfl⟩ := blanks_eq_ok.mp first
  obtain ⟨name, isType, rfl, rfl⟩ := exists_of_word named
  obtain ⟨blankAfter, outside, rfl⟩ := blanks_eq_ok.mp last
  exact ⟨_, .type blankBefore isType blankAfter, outside, by simp⟩

/-- A parameter is read up to a mark. -/
theorem outcome_parameter {before name after : List Char} (blankBefore : IsBlank before)
    (isType : IsTypeName name) (blankAfter : IsBlank after) {c : Char} (mark : c ∈ [',', ')'])
    (rest : List Char) : parameter.outcome (before ++ (name ++ (after ++ c :: rest))) =
      .ok (String.ofList name, c :: rest) := by
  have outside : StartsOutside Text.isPlainBlank (c :: rest) ∧
      StartsOutside isTypeChar (c :: rest) := by
    rw [Text.startsOutside_cons, Text.startsOutside_cons]
    rcases List.mem_cons.mp mark with rfl | mark
    · exact ⟨rfl, isTypeChar_of_mark _ (by decide)⟩
    · obtain rfl := List.mem_singleton.mp mark
      exact ⟨rfl, isTypeChar_of_mark _ (by decide)⟩
  exact delimited_eq_ok.mpr ⟨before, _, _, after,
    blanks_eq_ok.mpr ⟨blankBefore, isType.startsOutside isPlainBlank_of_typeChar _, rfl⟩,
    word_append isType (blankAfter.startsOutside outside.2),
    blanks_eq_ok.mpr ⟨blankAfter, outside.1, rfl⟩⟩

theorem comma_of_outcome {c : Char} (h : comma.outcome cs = .ok (c, rest))
    (outside : StartsOutside Text.isPlainBlank cs) :
    ∃ blanks, IsBlank blanks ∧ cs = ',' :: (blanks ++ rest) := by
  obtain ⟨before, inner, behind, after, first, marked, last⟩ := delimited_eq_ok.mp h
  obtain ⟨blankBefore, -, rfl⟩ := blanks_eq_ok.mp first
  obtain ⟨-, rfl⟩ := mark_eq_ok.mp marked
  obtain ⟨blankAfter, -, rfl⟩ := blanks_eq_ok.mp last
  cases before with
  | nil => exact ⟨after, blankAfter, rfl⟩
  | cons d before =>
    have blank := blankBefore d List.mem_cons_self
    rw [Text.startsOutside_cons.mp outside] at blank
    cases blank

theorem outcome_comma {blanks : List Char} (blank : IsBlank blanks)
    (outside : StartsOutside Text.isPlainBlank rest) :
    comma.outcome (',' :: (blanks ++ rest)) = .ok (',', rest) :=
  delimited_eq_ok.mpr ⟨[], _, _, blanks,
    blanks_eq_ok.mpr ⟨List.forall_mem_nil _, Text.startsOutside_cons.mpr rfl, rfl⟩,
    mark_cons ',' _, blanks_eq_ok.mpr ⟨blank, outside, rfl⟩⟩

/-- What is read behind a parameter is nothing, or a comma and further parameters. The induction is
on the types: a comma that no parameter follows is left where it is. -/
theorem moreParameters_of_outcome (outside : StartsOutside Text.isPlainBlank cs)
    (h : (comma.moreItems parameter).outcome cs = .ok (types, rest)) :
    (types = [] ∧ rest = cs) ∨
      ∃ inside, Parameters inside types ∧ cs = ',' :: (inside ++ rest) := by
  induction types generalizing cs with
  | nil =>
    rcases Parser.moreItems_cases h with finished | ⟨_, _, _, _, _, -, -, -, -, more⟩
    · exact .inl finished
    · cases more
  | cons type types ih =>
    rcases Parser.moreItems_cases h with
      ⟨none, -⟩ | ⟨c, behind, _, later, _, separated, -, first, others, ⟨⟩⟩
    · cases none
    · obtain ⟨blanks, blank, rfl⟩ := comma_of_outcome separated outside
      obtain ⟨text, parameter, apart, rfl⟩ := parameter_of_outcome first
      rcases ih apart others with ⟨rfl, rfl⟩ | ⟨inside, parameters, rfl⟩
      · exact .inr ⟨_, .last (parameter.spaced blank), by simp⟩
      · exact .inr ⟨_, .more (parameter.spaced blank) parameters, by simp⟩

theorem blanks_mark {c : Char} (h : Text.isPlainBlank c = false) (rest : List Char) :
    blanks.outcome (c :: rest) = .ok ([], c :: rest) :=
  blanks_eq_ok.mpr ⟨List.forall_mem_nil _, Text.startsOutside_cons.mpr h, rfl⟩

theorem moreParameters_closed (rest : List Char) :
    (comma.moreItems parameter).outcome (')' :: rest) = .ok ([], ')' :: rest) :=
  Parser.moreItems_of_error (delimited_of_error (blanks_mark rfl rest) (mark_of_head? (by simp)))

theorem outcome_moreParameters (h : Parameters inside types) (rest : List Char) :
    (comma.moreItems parameter).outcome (',' :: (inside ++ ')' :: rest)) =
      .ok (types, ')' :: rest) := by
  induction h with
  | last only =>
    obtain ⟨blankBefore, isType, blankAfter⟩ := only
    have next := outcome_parameter (List.forall_mem_nil _) isType blankAfter (c := ')') (by simp)
      rest
    have apart := isType.startsOutside isPlainBlank_of_typeChar
    have read := Parser.moreItems_of_ok (outcome_comma blankBefore (apart _)) (by grind) next
      (moreParameters_closed rest)
    simpa using read
  | @more _ later _ _ first _ ih =>
    obtain ⟨blankBefore, isType, blankAfter⟩ := first
    have next := outcome_parameter (List.forall_mem_nil _) isType blankAfter (c := ',') (by simp)
      (later ++ ')' :: rest)
    have apart := isType.startsOutside isPlainBlank_of_typeChar
    have read := Parser.moreItems_of_ok (outcome_comma blankBefore (apart _)) (by grind) next
      ih
    simpa using read

theorem parameters_eq_ok :
    (separatedList comma parameter).outcome cs = .ok (types, ')' :: rest) ↔
      (types = [] ∧ cs = ')' :: rest) ∨
        ∃ inside, Parameters inside types ∧ cs = inside ++ ')' :: rest := by
  constructor
  · intro h
    rcases Parser.separatedList_cases h with ⟨rfl, rfl⟩ | ⟨type, later, types, first, others, rfl⟩
    · exact .inl ⟨rfl, rfl⟩
    · obtain ⟨text, parameter, outside, rfl⟩ := parameter_of_outcome first
      rcases moreParameters_of_outcome outside others with ⟨rfl, rfl⟩ | ⟨inside, parameters, rfl⟩
      · exact .inr ⟨_, .last parameter, rfl⟩
      · exact .inr ⟨_, .more parameter parameters, by simp⟩
  · rintro (⟨rfl, rfl⟩ | ⟨inside, parameters, rfl⟩)
    · have missing : StartsOutside isTypeChar (')' :: rest) :=
        Text.startsOutside_cons.mpr (isTypeChar_of_mark _ (by decide))
      exact Parser.separatedList_of_error
        (delimited_of_error (blanks_mark rfl rest) (word_of_startsOutside missing))
    · cases parameters with
      | last only =>
        obtain ⟨blankBefore, isType, blankAfter⟩ := only
        have first := outcome_parameter blankBefore isType blankAfter (c := ')') (by simp) rest
        simpa using Parser.separatedList_of_ok first (moreParameters_closed rest)
      | @more _ later _ _ first others =>
        obtain ⟨blankBefore, isType, blankAfter⟩ := first
        have first := outcome_parameter blankBefore isType blankAfter (c := ',') (by simp)
          (later ++ ')' :: rest)
        simpa using Parser.separatedList_of_ok first (outcome_moreParameters others rest)

theorem startsOutside_parenthesis (rest : List Char) :
    StartsOutside Text.isPlainBlank ('(' :: rest) :=
  Text.startsOutside_cons.mpr (by decide)

/-- A parameter list is read just where one stands in front. -/
theorem parameterList_eq_ok :
    (preceded blanks parameterList).outcome cs = .ok (types, rest) ↔
      ∃ list, ParameterList list types ∧ cs = list ++ rest := by
  rw [Parser.outcome_preceded]
  constructor
  · intro h
    obtain ⟨⟨spaces, behind⟩, spaced, enclosed⟩ := Outcome.bind_eq_ok.mp h
    obtain ⟨blank, -, rfl⟩ := blanks_eq_ok.mp spaced
    obtain ⟨_, opened, closing, _, opens, listed, closes⟩ := delimited_eq_ok.mp enclosed
    obtain ⟨-, rfl⟩ := mark_eq_ok.mp opens
    obtain ⟨-, rfl⟩ := mark_eq_ok.mp closes
    rcases parameters_eq_ok.mp listed with ⟨rfl, rfl⟩ | ⟨inside, parameters, rfl⟩
    · exact ⟨_, .empty blank, by simp⟩
    · exact ⟨_, .filled blank parameters, by simp⟩
  · rintro ⟨list, parameters, rfl⟩
    have read {spaces : List Char} (inside : List Char) (blank : IsBlank spaces)
        (listed : (separatedList comma parameter).outcome (inside ++ ')' :: rest) =
          .ok (types, ')' :: rest)) :
        (blanks.outcome (spaces ++ '(' :: (inside ++ ')' :: rest)) >>= fun first =>
          parameterList.outcome first.2) = .ok (types, rest) := by
      have outside := startsOutside_parenthesis (inside ++ ')' :: rest)
      have spaced := blanks_eq_ok.mpr ⟨blank, outside, rfl⟩
      refine Outcome.bind_eq_ok.mpr ⟨_, spaced, ?_⟩
      exact delimited_eq_ok.mpr ⟨_, _, _, _, mark_cons '(' _, listed, mark_cons ')' rest⟩
    cases parameters with
    | @empty spaces blank =>
      simpa using read [] blank (parameters_eq_ok.mpr (.inl ⟨rfl, rfl⟩))
    | @filled spaces inside _ blank parameters =>
      simpa using read inside blank (parameters_eq_ok.mpr (.inr ⟨inside, parameters, rfl⟩))

/-- What follows a name is not part of it. -/
theorem ParameterList.startsOutside {list : List Char} {types : List String}
    (h : ParameterList list types) (rest : List Char) :
    StartsOutside isIdentifierChar (list ++ rest) := by
  have outside {blanks : List Char} (blank : IsBlank blanks) (later : List Char) :
      StartsOutside isIdentifierChar (blanks ++ '(' :: later) := by
    cases blanks with
    | nil => exact Text.startsOutside_cons.mpr (by decide)
    | cons c blanks =>
      refine Text.startsOutside_cons.mpr (isIdentifierChar_of_mark ?_)
      have := isPlainBlank_iff.mp (blank c List.mem_cons_self)
      grind
  cases h with
  | empty blank => simpa using outside blank (')' :: rest)
  | @filled blanks inside _ blank _ => simpa using outside blank (inside ++ ')' :: rest)

end Parameters

section Scanning

variable {type name cs rest later : List Char} {types : List String}

theorem startsOutside_dot (rest : List Char) : StartsOutside isIdentifierChar ('.' :: rest) :=
  Text.startsOutside_cons.mpr (by decide)

/-- The parts of a signature are read one after the other. -/
theorem scan_eq (cs : List Char) :
    scan cs = identifier.outcome cs >>= fun type => (mark '.').outcome type.2 >>= fun dot =>
      identifier.outcome dot.2 >>= fun name =>
        (optional (preceded blanks parameterList)).outcome name.2 >>= fun list =>
          if list.2 = [] then .ok ⟨type.1, name.1, list.1⟩ else .error ⟨list.2, .endOfText⟩ := by
  rw [scan, parser, Parser.whole_eq, Parser.outcome_map, Parser.outcome_pair, Parser.outcome_pair]
  simp only [Parser.outcome_pair, bind_assoc, pure_bind]

theorem scan_noType (missing : StartsOutside isIdentifierChar rest) :
    scan rest = .error ⟨rest, .run⟩ := by
  have refused : identifier.outcome rest = .error ⟨rest, .run⟩ := word_of_startsOutside missing
  rw [scan_eq, refused]
  rfl

/-- A signature whose declaring type is there. -/
theorem scan_append (isType : IsIdentifier type) (whole : StartsOutside isIdentifierChar rest) :
    scan (type ++ rest) = (mark '.').outcome rest >>= fun dot =>
      identifier.outcome dot.2 >>= fun name =>
        (optional (preceded blanks parameterList)).outcome name.2 >>= fun list =>
          if list.2 = [] then .ok ⟨String.ofList type, name.1, list.1⟩
          else .error ⟨list.2, .endOfText⟩ := by
  have found : identifier.outcome (type ++ rest) = .ok (String.ofList type, rest) :=
    word_append isType whole
  rw [scan_eq, found]
  rfl

theorem scan_noDot (isType : IsIdentifier type) (whole : StartsOutside isIdentifierChar rest)
    (missing : rest.head? ≠ some '.') : scan (type ++ rest) = .error ⟨rest, .mark⟩ := by
  rw [scan_append isType whole, mark_of_head? missing]
  rfl

theorem scan_noName (isType : IsIdentifier type) (missing : StartsOutside isIdentifierChar rest) :
    scan (type ++ '.' :: rest) = .error ⟨rest, .run⟩ := by
  have refused : identifier.outcome rest = .error ⟨rest, .run⟩ := word_of_startsOutside missing
  rw [scan_append isType (startsOutside_dot rest), mark_cons]
  change (identifier.outcome rest >>= _) = _
  rw [refused]
  rfl

/-- A signature whose name is there. -/
theorem scan_named (isType : IsIdentifier type) (isName : IsIdentifier name)
    (whole : StartsOutside isIdentifierChar rest) :
    scan (type ++ '.' :: (name ++ rest)) =
      (optional (preceded blanks parameterList)).outcome rest >>= fun list =>
        if list.2 = [] then .ok ⟨String.ofList type, String.ofList name, list.1⟩
        else .error ⟨list.2, .endOfText⟩ := by
  have found : identifier.outcome (name ++ rest) = .ok (String.ofList name, rest) :=
    word_append isName whole
  rw [scan_append isType (startsOutside_dot _), mark_cons]
  change (identifier.outcome (name ++ rest) >>= _) = _
  rw [found]
  rfl

theorem scan_of_list (isType : IsIdentifier type) (isName : IsIdentifier name)
    (whole : StartsOutside isIdentifierChar rest)
    (found : (preceded blanks parameterList).outcome rest = .ok (types, later)) :
    scan (type ++ '.' :: (name ++ rest)) =
      if later = [] then .ok (method (String.ofList type) (String.ofList name) types)
      else .error ⟨later, .endOfText⟩ := by
  rw [scan_named isType isName whole, Parser.outcome_optional_of_ok found]
  rfl

/-- What is no parameter list is not read at all. -/
theorem scan_of_noList (isType : IsIdentifier type) (isName : IsIdentifier name)
    (whole : StartsOutside isIdentifierChar rest) {refusal : Text.Refusal}
    (refused : (preceded blanks parameterList).outcome rest = .error refusal) :
    scan (type ++ '.' :: (name ++ rest)) =
      if rest = [] then .ok (property (String.ofList type) (String.ofList name))
      else .error ⟨rest, .endOfText⟩ := by
  rw [scan_named isType isName whole, Parser.outcome_optional_of_error refused]
  rfl

/-- A text that is read is a signature, and one that is not read stops where the reader does. -/
theorem scan_ends (cs : List Char) :
    Ends (fun refusal => Stops cs refusal.rest (expectationCode refusal.expected)) (Spells cs)
      (scan cs) := by
  rcases startsOutside_or_append isIdentifierChar cs with missing | ⟨type, rest, isType, whole, rfl⟩
  · rw [scan_noType missing]
    exact .error (.noType missing)
  by_cases dot : rest.head? = some '.'
  · obtain ⟨later, rfl⟩ := List.head?_eq_some_iff.mp dot
    rcases startsOutside_or_append isIdentifierChar later with
      missing | ⟨name, rest, isName, apart, rfl⟩
    · rw [scan_noName isType missing]
      exact .error (.noName isType missing)
    cases found : (preceded blanks parameterList).outcome rest with
    | error refusal =>
      rw [scan_of_noList isType isName apart found]
      split
      · rename_i nothing
        rw [nothing, List.append_nil]
        exact .ok (.property isType isName)
      · rename_i more
        refine .error
          (.afterName isType isName apart more fun list types later parameters same => ?_)
        rw [parameterList_eq_ok.mpr ⟨list, parameters, same⟩] at found
        cases found
    | ok result =>
      obtain ⟨types, later⟩ := result
      obtain ⟨list, parameters, rfl⟩ := parameterList_eq_ok.mp found
      rw [scan_of_list isType isName apart found]
      split
      · rename_i nothing
        rw [nothing, List.append_nil]
        exact .ok (.method isType isName parameters)
      · rename_i more
        exact .error (.afterList isType isName parameters more)
  · rw [scan_noDot isType whole dot]
    exact .error (.noDot isType whole dot)

theorem Spells.scan_eq {s : Signature} (h : Spells cs s) : scan cs = .ok s := by
  cases h with
  | @property type name isType isName =>
    have refused : (preceded blanks parameterList).outcome [] = .error ⟨[], .mark⟩ := rfl
    have read := scan_of_noList isType isName Text.startsOutside_nil refused
    rwa [List.append_nil, if_pos rfl] at read
  | @method type name list types isType isName parameters =>
    have found := parameterList_eq_ok.mpr ⟨list, parameters, (List.append_nil list).symm⟩
    have whole := parameters.startsOutside []
    rw [List.append_nil] at whole
    rw [scan_of_list isType isName whole found, if_pos rfl]

theorem Stops.scan_eq {code : String} (h : Stops cs rest code) :
    ∃ expected, expectationCode expected = code ∧ scan cs = .error ⟨rest, expected⟩ := by
  cases h with
  | noType missing => exact ⟨.run, rfl, scan_noType missing⟩
  | noDot isType whole missing => exact ⟨.mark, rfl, scan_noDot isType whole missing⟩
  | noName isType missing => exact ⟨.run, rfl, scan_noName isType missing⟩
  | @afterList _ _ list _ types isType isName parameters more =>
    have found : (preceded blanks parameterList).outcome (list ++ rest) = .ok (types, rest) :=
      parameterList_eq_ok.mpr ⟨list, parameters, rfl⟩
    refine ⟨.endOfText, rfl, ?_⟩
    rw [scan_of_list isType isName (parameters.startsOutside rest) found, if_neg more]
  | afterName isType isName whole more incomplete =>
    refine ⟨.endOfText, rfl, ?_⟩
    cases read : (preceded blanks parameterList).outcome rest with
    | error refusal => rw [scan_of_noList isType isName whole read, if_neg more]
    | ok result =>
      obtain ⟨list, parameters, same⟩ := parameterList_eq_ok.mp read
      exact absurd same (incomplete list _ _ parameters)

end Scanning

theorem expectationCode_injective : Function.Injective expectationCode := by
  intro a b
  cases a <;> cases b <;> simp [expectationCode]

theorem ofText_eq_ok_iff {input : String} {s : Signature} :
    ofText input = .ok s ↔ Spells (Text.trim input.toList) s := by
  have ends := scan_ends (Text.trim input.toList)
  constructor
  · intro h
    unfold ofText at h
    split at h
    · rename_i read
      cases h
      rw [read] at ends
      cases ends with
      | ok spells => exact spells
    · cases h
  · intro spells
    rw [ofText, spells.scan_eq]

theorem ofText_eq_error_iff {input : String} {fault : SignatureFault} :
    ofText input = .error fault ↔ fault.input = input ∧
      Stops (Text.trim input.toList) fault.rest (expectationCode fault.expected) := by
  have ends := scan_ends (Text.trim input.toList)
  constructor
  · intro h
    unfold ofText at h
    split at h
    · cases h
    · rename_i refused
      cases h
      rw [refused] at ends
      cases ends with
      | error stops => exact ⟨rfl, stops⟩
  · rintro ⟨rfl, stops⟩
    obtain ⟨expected, same, refused⟩ := stops.scan_eq
    rw [ofText, refused, expectationCode_injective same]

/-- Reading removes the white space around a text. What is left is read just when it is a signature
by the grammar; every other text is refused with what is left at the place where it stops being one,
and with the word for what is wrong there. -/
theorem ofText_by_grammar (input : String) :
    ∃ text, Trims input.toList text ∧ (∀ s, ofText input = .ok s ↔ Spells text s) ∧
      ∀ fault, ofText input = .error fault ↔
        fault.input = input ∧ Stops text fault.rest (expectationCode fault.expected) :=
  ⟨_, Text.trims_trim input.toList, fun _ => ofText_eq_ok_iff, fun _ => ofText_eq_error_iff⟩

example : ofText " DateTime.Add\t( Nullable<Int32> ,Sequence<Cook>) " =
    .ok (method "DateTime" "Add" ["Nullable<Int32>", "Sequence<Cook>"]) := by decide +kernel

example : ofText "DateTime.Add (Int32, )" =
    .error ⟨"DateTime.Add (Int32, )", " (Int32, )".toList, .endOfText⟩ := by decide +kernel

end Signature

end Method

end Comprehension
