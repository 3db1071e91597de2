import Comprehension.Text.Blank

/-!
Parsers and how they are put together. A parser reads the beginning of a text and gives back what
follows, or it refuses. Only two ways of putting parsers together go on after a refusal: what is
optional is then left out, and a list ends before the separator that no item follows.
-/
namespace Comprehension.Text

/-- What a text lacks at the position where reading stopped. -/
inductive Expectation where
  | run
  | mark
  | progress
  | endOfText
deriving DecidableEq, Repr

/-- The text from the failing position on, and what was expected there. -/
structure Refusal where
  rest : List Char
  expected : Expectation
deriving DecidableEq, Repr

/-- What may be left of a text. -/
abbrev Rest (cs : List Char) : Type := { rest : List Char // rest <:+ cs }

abbrev Parser (α : Type) : Type := (cs : List Char) → Except Refusal (α × Rest cs)

namespace Parser

variable {α β γ : Type}

/-- The longest run of characters of a class, at least one. -/
def run (accepts : Char → Bool) : Parser (List Char) := fun cs =>
  match cs.takeWhile accepts with
  | [] => .error ⟨cs, .run⟩
  | taken => .ok (taken, ⟨cs.dropWhile accepts, List.dropWhile_suffix accepts⟩)

def mark (c : Char) : Parser Char
  | [] => .error ⟨[], .mark⟩
  | d :: cs => if d = c then .ok (d, ⟨cs, List.suffix_cons d cs⟩) else .error ⟨d :: cs, .mark⟩

/-- Plain blanks, which may be missing. -/
def blanks : Parser (List Char) := fun cs =>
  .ok (cs.takeWhile isPlainBlank, ⟨cs.dropWhile isPlainBlank, List.dropWhile_suffix isPlainBlank⟩)

def map (f : α → β) (p : Parser α) : Parser β := fun cs =>
  match p cs with
  | .error refusal => .error refusal
  | .ok (a, rest) => .ok (f a, rest)

def pair (first : Parser α) (second : Parser β) : Parser (α × β) := fun cs =>
  match first cs with
  | .error refusal => .error refusal
  | .ok (a, rest) =>
    match second rest.1 with
    | .error refusal => .error refusal
    | .ok (b, later) => .ok ((a, b), ⟨later.1, later.2.trans rest.2⟩)

def preceded (before : Parser β) (p : Parser α) : Parser α := (before.pair p).map Prod.snd

def delimited (before : Parser β) (p : Parser α) (after : Parser γ) : Parser α :=
  before.preceded ((p.pair after).map Prod.fst)

/-- Reads nothing where the parser refuses. -/
def optional (p : Parser α) : Parser (Option α) := fun cs =>
  match p cs with
  | .error _ => .ok (none, ⟨cs, List.suffix_refl cs⟩)
  | .ok (a, rest) => .ok (some a, rest)

/-- Items with a separator before each. A separator that reads nothing is refused, since it could be
read for ever; one that no item follows is not read at all. -/
def moreItems (separator : Parser β) (item : Parser α) : Parser (List α) := fun cs =>
  match separator cs with
  | .error _ => .ok ([], ⟨cs, List.suffix_refl cs⟩)
  | .ok (_, behind) =>
    if behind.1.length = cs.length then .error ⟨behind.1, .progress⟩
    else
      match item behind.1 with
      | .error _ => .ok ([], ⟨cs, List.suffix_refl cs⟩)
      | .ok (a, rest) =>
        match moreItems separator item rest.1 with
        | .error refusal => .error refusal
        | .ok (items, later) =>
          .ok (a :: items, ⟨later.1, later.2.trans (rest.2.trans behind.2)⟩)
termination_by cs => cs.length
decreasing_by
  have shorter := behind.2.length_le
  have := rest.2.length_le
  omega

/-- Items with a separator between each two. -/
def separatedList (separator : Parser β) (item : Parser α) : Parser (List α) := fun cs =>
  match item cs with
  | .error _ => .ok ([], ⟨cs, List.suffix_refl cs⟩)
  | .ok (a, rest) =>
    match separator.moreItems item rest.1 with
    | .error refusal => .error refusal
    | .ok (items, later) => .ok (a :: items, ⟨later.1, later.2.trans rest.2⟩)

/-- Reads the whole of a text. -/
def whole (p : Parser α) (cs : List Char) : Except Refusal α :=
  match p cs with
  | .error refusal => .error refusal
  | .ok (a, rest) => if rest.1 = [] then .ok a else .error ⟨rest.1, .endOfText⟩

section Outcomes

variable {p : Parser α} {cs rest : List Char} {a : α} {refusal : Refusal}

/-- What a parser gives, with what is left as a text of its own. -/
def outcome (p : Parser α) (cs : List Char) : Except Refusal (α × List Char) :=
  (p cs).map fun result => (result.1, result.2.1)

theorem outcome_eq_ok :
    p.outcome cs = .ok (a, rest) ↔ ∃ left : Rest cs, p cs = .ok (a, left) ∧ left.1 = rest := by
  unfold outcome
  cases p cs with
  | error refusal => simp [Except.map]
  | ok result =>
    constructor
    · rintro ⟨⟩
      exact ⟨result.2, rfl, rfl⟩
    · rintro ⟨left, ⟨⟩, rfl⟩
      rfl

theorem outcome_eq_error : p.outcome cs = .error refusal ↔ p cs = .error refusal := by
  unfold outcome
  cases p cs <;> simp [Except.map]

theorem outcome_map (f : α → β) (p : Parser α) (cs : List Char) :
    (p.map f).outcome cs = p.outcome cs >>= fun result => pure (f result.1, result.2) := by
  unfold outcome map
  cases p cs <;> rfl

theorem outcome_pair (p : Parser α) (q : Parser β) (cs : List Char) :
    (p.pair q).outcome cs = p.outcome cs >>= fun first =>
      q.outcome first.2 >>= fun second => pure ((first.1, second.1), second.2) := by
  unfold outcome pair
  cases p cs with
  | error refusal => rfl
  | ok first =>
    obtain ⟨a, rest⟩ := first
    simp only [Except.map, bind, Except.bind]
    cases q rest.1 <;> rfl

theorem outcome_preceded (p : Parser α) (q : Parser β) (cs : List Char) :
    (p.preceded q).outcome cs = p.outcome cs >>= fun first => q.outcome first.2 := by
  rw [preceded, outcome_map, outcome_pair, bind_assoc]
  congr 1
  funext first
  rw [bind_assoc]
  exact bind_pure (q.outcome first.2)

theorem outcome_delimited (before : Parser β) (p : Parser α) (after : Parser γ) (cs : List Char) :
    (before.delimited p after).outcome cs = before.outcome cs >>= fun first =>
      p.outcome first.2 >>= fun inner =>
        after.outcome inner.2 >>= fun last => pure (inner.1, last.2) := by
  rw [delimited, outcome_preceded]
  congr 1
  funext first
  rw [outcome_map, outcome_pair, bind_assoc]
  congr 1
  funext inner
  rw [bind_assoc]
  rfl

theorem outcome_optional_of_error (h : p.outcome cs = .error refusal) :
    p.optional.outcome cs = .ok (none, cs) := by
  refine outcome_eq_ok.mpr ⟨⟨cs, List.suffix_refl cs⟩, ?_, rfl⟩
  rw [optional, outcome_eq_error.mp h]

theorem outcome_optional_of_ok (h : p.outcome cs = .ok (a, rest)) :
    p.optional.outcome cs = .ok (some a, rest) := by
  obtain ⟨left, read, rfl⟩ := outcome_eq_ok.mp h
  refine outcome_eq_ok.mpr ⟨left, ?_, rfl⟩
  rw [optional, read]

theorem whole_eq (p : Parser α) (cs : List Char) :
    p.whole cs = p.outcome cs >>= fun result =>
      if result.2 = [] then .ok result.1 else .error ⟨result.2, .endOfText⟩ := by
  unfold outcome whole
  cases p cs <;> rfl

end Outcomes

section Lists

variable {separator : Parser β} {item : Parser α} {cs behind later rest : List Char} {a : α} {b : β}
  {items : List α} {refusal : Refusal}

/-- A list goes on with a separator and an item, or it has come to its end. -/
theorem moreItems_cases (h : (separator.moreItems item).outcome cs = .ok (items, rest)) :
    (items = [] ∧ rest = cs) ∨ ∃ b behind a later others,
      separator.outcome cs = .ok (b, behind) ∧ behind.length < cs.length ∧
      item.outcome behind = .ok (a, later) ∧
      (separator.moreItems item).outcome later = .ok (others, rest) ∧ items = a :: others := by
  obtain ⟨left, h', rfl⟩ := outcome_eq_ok.mp h
  rw [moreItems] at h'
  split at h'
  · cases h'
    exact .inl ⟨rfl, rfl⟩
  rename_i b behind read
  split at h'
  · cases h'
  rename_i progress
  split at h'
  · cases h'
    exact .inl ⟨rfl, rfl⟩
  rename_i a later next
  split at h'
  · cases h'
  rename_i others last more
  cases h'
  have shorter := behind.2.length_le
  exact .inr ⟨b, behind.1, a, later.1, others, outcome_eq_ok.mpr ⟨behind, read, rfl⟩, by omega,
    outcome_eq_ok.mpr ⟨later, next, rfl⟩, outcome_eq_ok.mpr ⟨last, more, rfl⟩, rfl⟩

theorem moreItems_of_error (h : separator.outcome cs = .error refusal) :
    (separator.moreItems item).outcome cs = .ok ([], cs) := by
  refine outcome_eq_ok.mpr ⟨⟨cs, List.suffix_refl cs⟩, ?_, rfl⟩
  rw [moreItems, outcome_eq_error.mp h]

theorem moreItems_of_ok (read : separator.outcome cs = .ok (b, behind))
    (shorter : behind.length < cs.length) (next : item.outcome behind = .ok (a, later))
    (more : (separator.moreItems item).outcome later = .ok (items, rest)) :
    (separator.moreItems item).outcome cs = .ok (a :: items, rest) := by
  obtain ⟨behind, separated, rfl⟩ := outcome_eq_ok.mp read
  obtain ⟨later, followed, rfl⟩ := outcome_eq_ok.mp next
  obtain ⟨rest, others, rfl⟩ := outcome_eq_ok.mp more
  refine outcome_eq_ok.mpr ⟨⟨rest.1, rest.2.trans (later.2.trans behind.2)⟩, ?_, rfl⟩
  rw [moreItems, separated]
  simp only [if_neg (Nat.ne_of_lt shorter), followed, others]

theorem separatedList_cases (h : (separator.separatedList item).outcome cs = .ok (items, rest)) :
    (items = [] ∧ rest = cs) ∨ ∃ a later others, item.outcome cs = .ok (a, later) ∧
      (separator.moreItems item).outcome later = .ok (others, rest) ∧ items = a :: others := by
  obtain ⟨left, h', rfl⟩ := outcome_eq_ok.mp h
  unfold separatedList at h'
  split at h'
  · cases h'
    exact .inl ⟨rfl, rfl⟩
  rename_i a later first
  split at h'
  · cases h'
  rename_i others last more
  cases h'
  exact .inr ⟨a, later.1, others, outcome_eq_ok.mpr ⟨later, first, rfl⟩,
    outcome_eq_ok.mpr ⟨last, more, rfl⟩, rfl⟩

theorem separatedList_of_error (h : item.outcome cs = .error refusal) :
    (separator.separatedList item).outcome cs = .ok ([], cs) := by
  refine outcome_eq_ok.mpr ⟨⟨cs, List.suffix_refl cs⟩, ?_, rfl⟩
  rw [separatedList, outcome_eq_error.mp h]

theorem separatedList_of_ok (first : item.outcome cs = .ok (a, later))
    (more : (separator.moreItems item).outcome later = .ok (items, rest)) :
    (separator.separatedList item).outcome cs = .ok (a :: items, rest) := by
  obtain ⟨later, started, rfl⟩ := outcome_eq_ok.mp first
  obtain ⟨rest, others, rfl⟩ := outcome_eq_ok.mp more
  refine outcome_eq_ok.mpr ⟨⟨rest.1, rest.2.trans later.2⟩, ?_, rfl⟩
  rw [separatedList, started]
  simp only [others]

end Lists

end Parser

end Comprehension.Text
