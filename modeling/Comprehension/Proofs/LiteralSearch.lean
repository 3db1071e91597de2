import Comprehension.Proofs.Methods
import Mathlib.Data.List.Infix

/-!
Searches for a text as it stands. `LIKE` reads a pattern as a list of elements and covers the text
with them, one after the other. An escaped text is read as its own characters, so a text matches
the pattern of a search just when it contains, starts with or ends with what is searched for.
-/
namespace Comprehension.Method

namespace Registry

variable {signature : Signature} {transformer : Transformer}

theorem lookup_insert_of_ne {other : Signature} (h : signature ≠ other) (replacement : Transformer)
    (entries : List (Signature × Transformer)) :
    (insert other replacement entries).lookup signature = entries.lookup signature := by
  have apart : (signature == other) = false := beq_eq_false_iff_ne.mpr h
  induction entries with
  | nil => simp [insert, List.lookup_cons, apart]
  | cons entry rest ih =>
    obtain ⟨s, t⟩ := entry
    unfold insert
    split
    · rename_i same
      subst same
      simp [List.lookup_cons, apart]
    · simp [List.lookup_cons, ih]

theorem get?_foldl_register (methods : List (Signature × Transformer)) (r : Registry)
    (others : ∀ method ∈ methods, method.1 ≠ signature) :
    (methods.foldl (fun r (s, t) => r.register s t) r).get? signature = r.get? signature := by
  induction methods generalizing r with
  | nil => rfl
  | cons method rest ih =>
    obtain ⟨first, later⟩ := List.forall_mem_cons.mp others
    rw [List.foldl_cons, ih _ later]
    exact lookup_insert_of_ne (Ne.symm first) method.2 r.entries

/-- A built-in method is what its signature stands for, unless it is listed again. -/
theorem get?_defaults (before after : List (Signature × Transformer))
    (listed : builtIn = before ++ (signature, transformer) :: after)
    (last : ∀ method ∈ after, method.1 ≠ signature) :
    defaults.get? signature = some transformer := by
  rw [defaults, listed, List.foldl_append, List.foldl_cons, get?_foldl_register after _ last]
  exact get?_register _ signature transformer

theorem get?_defaults_of_mem (before : List (Signature × Transformer))
    {group : List (Signature × Transformer)} (after : List (Signature × Transformer))
    (split : builtIn = before ++ group ++ after) (once : (group.map Prod.fst).Nodup)
    (apart : ∀ method ∈ group, ∀ other ∈ after, other.1 ≠ method.1)
    (listed : (signature, transformer) ∈ group) :
    defaults.get? signature = some transformer := by
  obtain ⟨earlier, later, rfl⟩ := List.append_of_mem listed
  refine get?_defaults (before ++ earlier) (later ++ after) (by simp [split]) fun method mem => ?_
  rcases List.mem_append.mp mem with mem | mem
  · rw [List.map_append, List.map_cons] at once
    have absent := (List.nodup_cons.mp (List.nodup_append.mp once).2.1).1
    exact fun same => absent (List.mem_map.mpr ⟨method, mem, same⟩)
  · exact apart _ listed method mem

end Registry

namespace Pattern

open Sql (Expr)

/-- What a pattern is made of. -/
inductive Element where
  | character (c : Char)
  /-- Any one character. -/
  | single
  /-- Any run of characters, also none. -/
  | run
  /-- One character of a class. -/
  | oneOf (members : List Char)
deriving DecidableEq, Repr

/-- Whether a class lists a character, by itself or in a range. -/
def listed (c : Char) : List Char → Bool
  | [] => false
  | first :: '-' :: last :: rest => (first ≤ c && c ≤ last) || listed c rest
  | member :: rest => member = c || listed c rest

def inClass (c : Char) : List Char → Bool
  | '^' :: members => !listed c members
  | members => listed c members

namespace Element

def accepts (c : Char) : Element → Bool
  | character d => d = c
  | single => true
  | run => false
  | oneOf members => inClass c members

end Element

/-- Where the reading of a pattern stands: between elements, behind the escape character, or in a
class with some members. -/
inductive Reading where
  | between
  | escaping
  | listing (members : List Char)

/-- The elements of a pattern. A pattern that ends behind the escape character or in a class has
none. -/
def elementsFrom : Reading → List Char → Option (List Element)
  | .between, [] => some []
  | .escaping, [] => none
  | .listing _, [] => none
  | .between, c :: rest =>
    if c = escapeChar then elementsFrom .escaping rest
    else if c = '%' then (elementsFrom .between rest).map (.run :: ·)
    else if c = '_' then (elementsFrom .between rest).map (.single :: ·)
    else if c = '[' then elementsFrom (.listing []) rest
    else (elementsFrom .between rest).map (.character c :: ·)
  | .escaping, c :: rest => (elementsFrom .between rest).map (.character c :: ·)
  | .listing members, c :: rest =>
    if c = ']' then (elementsFrom .between rest).map (.oneOf members :: ·)
    else elementsFrom (.listing (members ++ [c])) rest

def covers : List Element → List Char → Bool
  | [], text => text.isEmpty
  | .run :: rest, text => text.tails.any (covers rest)
  | _ :: _, [] => false
  | element :: rest, c :: text => element.accepts c && covers rest text

def likes (pattern text : String) : Bool :=
  (elementsFrom .between pattern.toList).any (covers · text.toList)

/-- The text without its escape characters. A wildcard that is not escaped has no place in it. -/
def unescape? : List Char → Option (List Char)
  | [] => some []
  | [c] => if isWildcard c then none else some [c]
  | c :: d :: rest =>
    if c = escapeChar then (unescape? rest).map (d :: ·)
    else if isWildcard c then none
    else (unescape? (d :: rest)).map (c :: ·)

/-- A text with another one in the place of each occurrence of a character. -/
def substituted (c : Char) (replacement text : List Char) : List Char :=
  text.flatMap fun d => if d = c then replacement else [d]

theorem isWildcard_iff (c : Char) :
    isWildcard c = true ↔ c = escapeChar ∨ c = '%' ∨ c = '_' ∨ c = '[' := by
  simp [isWildcard, wildcards]

/-- Escaping replaces the wildcards one after the other. The escape character has to come first:
later on it also stands before other wildcards. -/
theorem escapeChars_eq_foldl (text : List Char) :
    escapeChars text =
      wildcards.foldl (fun text c => substituted c [escapeChar, c] text) text := by
  simp only [wildcards, List.foldl_cons, List.foldl_nil, substituted, List.flatMap_assoc]
  rw [escapeChars]
  congr 1
  funext c
  by_cases escape : c = escapeChar
  · subst escape
    rfl
  by_cases percent : c = '%'
  · subst percent
    rfl
  by_cases underscore : c = '_'
  · subst underscore
    rfl
  by_cases bracket : c = '['
  · subst bracket
    rfl
  simp [isWildcard, wildcards, escape, percent, underscore, bracket]

theorem unescape?_escapeChars (text : List Char) : unescape? (escapeChars text) = some text := by
  induction text with
  | nil => rfl
  | cons c rest ih =>
    rw [escapeChars_cons]
    by_cases wild : isWildcard c = true
    · simp [wild, unescape?, ih]
    · have plain : c ≠ escapeChar := fun same => wild ((isWildcard_iff c).mpr (.inl same))
      -- An escape character is looked for with the character behind it.
      cases h : escapeChars rest with
      | nil =>
        rw [h] at ih
        cases ih
        simp [wild, unescape?]
      | cons d others =>
        rw [h] at ih
        simp [wild, plain, unescape?, ih]

/-- An escaped text is read as its own characters, whatever follows it. -/
theorem elementsFrom_escapeChars (text rest : List Char) :
    elementsFrom .between (escapeChars text ++ rest) =
      (elementsFrom .between rest).map (text.map .character ++ ·) := by
  induction text with
  | nil => simp
  | cons c text ih =>
    rw [escapeChars_cons]
    by_cases wild : isWildcard c = true
    · simp [wild, elementsFrom, ih, Function.comp_def]
    · have plain := mt (isWildcard_iff c).mpr wild
      simp only [not_or] at plain
      obtain ⟨escape, percent, underscore, bracket⟩ := plain
      simp [wild, elementsFrom, escape, percent, underscore, bracket, ih, Function.comp_def]

theorem elementsFrom_percent (rest : List Char) :
    elementsFrom .between ('%' :: rest) = (elementsFrom .between rest).map (.run :: ·) := by
  simp [elementsFrom, escapeChar]

/-- A run covers whatever is left over in front. -/
theorem covers_run (rest : List Element) (text : List Char) :
    covers (.run :: rest) text = true ↔
      ∃ skipped tail, text = skipped ++ tail ∧ covers rest tail = true := by
  rw [covers, List.any_eq_true]
  constructor
  · rintro ⟨tail, mem, covered⟩
    obtain ⟨skipped, rfl⟩ := (List.mem_tails _ _).mp mem
    exact ⟨skipped, tail, rfl, covered⟩
  · rintro ⟨skipped, tail, rfl, covered⟩
    exact ⟨tail, (List.mem_tails _ _).mpr (List.suffix_append skipped tail), covered⟩

theorem covers_characters (searched : List Char) (rest : List Element) (text : List Char) :
    covers (searched.map .character ++ rest) text = true ↔
      ∃ tail, text = searched ++ tail ∧ covers rest tail = true := by
  induction searched generalizing text with
  | nil => simp
  | cons c searched ih =>
    cases text with
    | nil => simp [covers]
    | cons d text =>
      simp only [List.map_cons, List.cons_append, covers, Element.accepts, Bool.and_eq_true,
        decide_eq_true_eq, ih, List.cons.injEq]
      constructor
      · rintro ⟨rfl, tail, rfl, covered⟩
        exact ⟨tail, ⟨rfl, rfl⟩, covered⟩
      · rintro ⟨tail, ⟨rfl, rfl⟩, covered⟩
        exact ⟨rfl, tail, rfl, covered⟩

theorem covers_anything (text : List Char) : covers [.run] text = true :=
  (covers_run [] text).mpr ⟨text, [], by simp, rfl⟩

namespace Anchor

def method : Anchor → String
  | anywhere => "Contains"
  | start => "StartsWith"
  | finish => "EndsWith"

def Finds (searched text : List Char) : Anchor → Prop
  | anywhere => searched <:+: text
  | start => searched <+: text
  | finish => searched <:+ text

def elements (searched : List Char) : Anchor → List Element
  | anywhere => .run :: (searched.map .character ++ [.run])
  | start => searched.map .character ++ [.run]
  | finish => .run :: searched.map .character

theorem elementsFrom_pattern (anchor : Anchor) (searched : String) :
    elementsFrom .between (anchor.pattern (escape searched)).toList =
      some (anchor.elements searched.toList) := by
  have run : elementsFrom .between ['%'] = some [.run] := elementsFrom_percent []
  have escaped := elementsFrom_escapeChars searched.toList
  cases anchor with
  | anywhere => simp [pattern, escape, elementsFrom_percent, escaped, run, elements]
  | start => simp [pattern, escape, escaped, run, elements]
  | finish =>
    have whole := escaped []
    rw [List.append_nil] at whole
    simp [pattern, escape, elementsFrom_percent, whole, elementsFrom, elements]

theorem covers_elements (anchor : Anchor) (searched text : List Char) :
    covers (anchor.elements searched) text = true ↔ anchor.Finds searched text := by
  have characters := covers_characters searched
  cases anchor with
  | anywhere =>
    rw [elements, covers_run]
    simp only [characters, covers_anything, and_true]
    constructor
    · rintro ⟨skipped, _, whole, tail, rfl⟩
      exact ⟨skipped, tail, by rw [whole, List.append_assoc]⟩
    · rintro ⟨skipped, tail, whole⟩
      exact ⟨skipped, _, by rw [← whole, List.append_assoc], tail, rfl⟩
  | start =>
    rw [elements, characters]
    simp only [covers_anything, and_true]
    exact exists_congr fun tail => eq_comm
  | finish =>
    have exactly (tail : List Char) :
        covers (searched.map .character) tail = true ↔ tail = searched := by
      have alone := characters [] tail
      rw [List.append_nil] at alone
      simp [alone, covers]
    rw [elements, covers_run]
    simp only [exactly, exists_eq_right]
    exact exists_congr fun skipped => eq_comm

theorem get?_method (anchor : Anchor) :
    Registry.defaults.get? (.method "String" anchor.method ["String"]) = some (search anchor) := by
  let later := Dates.methods ++ Conversion.methods ++ FullText.methods ++ Equality.methods
  cases anchor with
  | anywhere =>
    refine Registry.get?_defaults Strings.methods (methods.tail ++ later) ?_ (by decide +kernel)
    simp [Registry.builtIn, methods, later, method]
  | start =>
    refine Registry.get?_defaults (Strings.methods ++ methods.take 1) (methods.drop 2 ++ later) ?_
      (by decide +kernel)
    simp [Registry.builtIn, methods, later, method]
  | finish =>
    refine Registry.get?_defaults (Strings.methods ++ methods.take 2) later ?_ (by decide +kernel)
    simp [Registry.builtIn, methods, later, method]

end Anchor

/-- A search for a constant becomes a pattern that a text is like just when it holds the constant at
the anchor. In the pattern the constant stands escaped: without the escapes it is there again, no
wildcard stands by itself, and the escapes are those of one wildcard after the other. -/
theorem search_finds_constant (anchor : Anchor) (value : Expr) (searched : String)
    (type callType : ValueType) (call : String) :
    Registry.defaults.transform
        { signature := .method "String" anchor.method ["String"]
          object := some value
          arguments := [.constant (.string searched) type]
          type := callType
          text := call } =
      .ok (.like value (.constant (.string (anchor.pattern (escape searched))) .string)) ∧
    (∀ text, likes (anchor.pattern (escape searched)) text = true ↔
      anchor.Finds searched.toList text.toList) ∧
    unescape? (escape searched).toList = some searched.toList ∧
    (escape searched).toList =
      wildcards.foldl (fun text c => substituted c [escapeChar, c] text) searched.toList := by
  have chars : (escape searched).toList = escapeChars searched.toList := by simp [escape]
  refine ⟨?_, fun text => ?_, ?_, ?_⟩
  · rw [Registry.transform, anchor.get?_method]
    rfl
  · rw [likes, anchor.elementsFrom_pattern, Option.any_some]
    exact anchor.covers_elements searched.toList text.toList
  · rw [chars]
    exact unescape?_escapeChars searched.toList
  · rw [chars]
    exact escapeChars_eq_foldl searched.toList

example : likes "_%\\%[^a-c]" "50%d" = true ∧ likes "50%" "500" = true ∧
    likes (Anchor.start.pattern (escape "50%")) "500" = false := by decide +kernel

end Pattern

end Comprehension.Method
