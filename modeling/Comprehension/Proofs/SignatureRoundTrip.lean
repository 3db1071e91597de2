import Comprehension.Proofs.SignatureGrammar

/-!
Signatures and their texts. The text of a signature that is well formed is read back as the same
signature, the calls of queries included, and what is read from any text is well formed. So
signatures that are registered as texts meet the calls that they stand for.
-/
namespace Comprehension

namespace Text

theorem exists_of_inRanges {ranges : List (Nat × Nat)} {n : Nat} (h : inRanges ranges n = true) :
    ∃ range ∈ ranges, range.1 ≤ n ∧ n ≤ range.2 := by
  induction ranges with
  | nil => cases h
  | cons range rest ih =>
    obtain ⟨first, last⟩ := range
    rw [inRanges] at h
    split at h
    · cases h
    · split at h
      · exact ⟨(first, last), List.mem_cons_self, by omega, by omega⟩
      · obtain ⟨range, mem, bounds⟩ := ih h
        exact ⟨range, List.mem_cons_of_mem _ mem, bounds⟩

/-- White space is neither a letter nor a number. -/
theorem isAlphanumeric_of_isBlank {c : Char} (h : isBlank c = true) : isAlphanumeric c = false := by
  have apart : ∀ range ∈ blankRanges, ∀ n ∈ List.range' range.1 (range.2 + 1 - range.1),
      inRanges alphanumericRanges n = false := by decide +kernel
  obtain ⟨range, mem, lower, upper⟩ := exists_of_inRanges h
  exact apart range mem c.toNat (List.mem_range'_1.mpr (by omega))

end Text

namespace ValueType

/-- The names of the entities in a type. -/
def entityNames : ValueType → List String
  | entity name => [name]
  | sequence item => item.entityNames
  | nullable inner => inner.entityNames
  | _ => []

end ValueType

namespace Method.Signature

open Text (StartsOutside ConsistsOf Trims)

/-- Whether the parts of a signature are what the grammar takes for them. -/
structure WellFormed (s : Signature) : Prop where
  declaringType : IsIdentifier s.declaringType.toList
  name : IsIdentifier s.name.toList
  parameters : ∀ types, s.parameters = some types → ∀ type ∈ types, IsTypeName type.toList

theorem isTypeName_applied {name argument : List Char} (isName : IsTypeName name)
    (isArgument : IsTypeName argument) : IsTypeName (name ++ '<' :: (argument ++ ['>'])) := by
  refine ⟨by simp, fun c hc => ?_⟩
  rw [List.mem_append, List.mem_cons, List.mem_append, List.mem_singleton] at hc
  rcases hc with mem | rfl | mem | rfl
  · exact isName.2 c mem
  · decide
  · exact isArgument.2 c mem
  · decide

/-- The name of a type is a type name, if those of its entities are. -/
theorem isTypeName_name {type : ValueType}
    (h : ∀ name ∈ type.entityNames, IsTypeName name.toList) : IsTypeName type.name.toList := by
  have sequence : IsTypeName "Sequence".toList := by decide +kernel
  have nullable : IsTypeName "Nullable".toList := by decide +kernel
  induction type with
  | entity name => exact h name (List.mem_singleton_self name)
  | sequence item ih => simpa [ValueType.name] using isTypeName_applied sequence (ih h)
  | nullable inner ih => simpa [ValueType.name] using isTypeName_applied nullable (ih h)
  | _ => decide +kernel

theorem parameter_spaced {blanks : List Char} (blank : IsBlank blanks) {type : String}
    (isType : IsTypeName type.toList) : Parameter (blanks ++ type.toList) type := by
  have spelled : Parameter (blanks ++ (type.toList ++ [])) (String.ofList type.toList) :=
    .type blank isType (List.forall_mem_nil _)
  rwa [List.append_nil, String.ofList_toList] at spelled

/-- Types that are joined by a comma and a blank are parameters, whatever blanks stand before. -/
theorem parameters_joined {types : List String} (some : types ≠ [])
    (h : ∀ type ∈ types, IsTypeName type.toList) {blanks : List Char} (blank : IsBlank blanks) :
    Parameters (blanks ++ (Text.joined ", " types).toList) types := by
  induction types generalizing blanks with
  | nil => exact absurd rfl some
  | cons type rest ih =>
    obtain ⟨first, others⟩ := List.forall_mem_cons.mp h
    cases rest with
    | nil => exact .last (parameter_spaced blank first)
    | cons second rest =>
      have spaced : IsBlank [' '] := by decide +kernel
      have later := ih (List.cons_ne_nil second rest) others spaced
      have whole := Parameters.more (parameter_spaced blank first) later
      simpa [Text.joined] using whole

/-- Types between parentheses are a parameter list, also when there are none. -/
theorem parameterList_joined {types : List String}
    (h : ∀ type ∈ types, IsTypeName type.toList) :
    ParameterList ('(' :: ((Text.joined ", " types).toList ++ [')'])) types := by
  have blank : IsBlank [] := List.forall_mem_nil _
  cases types with
  | nil => exact .empty blank
  | cons type rest => exact .filled blank (parameters_joined (List.cons_ne_nil type rest) h blank)

theorem WellFormed.spells {s : Signature} (h : s.WellFormed) : Spells s.text.toList s := by
  obtain ⟨declaringType, name, parameters⟩ := s
  obtain ⟨isType, isName, areTypes⟩ := h
  cases parameters with
  | none =>
    have spelled := Spells.property isType isName
    simpa [text, property] using spelled
  | some types =>
    have spelled := Spells.method isType isName (parameterList_joined (areTypes types rfl))
    simpa [text, method] using spelled

theorem Parameters.areTypeNames {cs : List Char} {types : List String} (h : Parameters cs types) :
    ∀ type ∈ types, IsTypeName type.toList := by
  have isTypeName {cs : List Char} {type : String} (h : Parameter cs type) :
      IsTypeName type.toList := by
    obtain ⟨-, isType, -⟩ := h
    rwa [String.toList_ofList]
  induction h with
  | last only => exact List.forall_mem_singleton.mpr (isTypeName only)
  | more first later ih => exact List.forall_mem_cons.mpr ⟨isTypeName first, ih⟩

theorem ParameterList.areTypeNames {cs : List Char} {types : List String}
    (h : ParameterList cs types) : ∀ type ∈ types, IsTypeName type.toList := by
  cases h with
  | empty => exact List.forall_mem_nil _
  | filled _ parameters => exact parameters.areTypeNames

theorem Spells.wellFormed {cs : List Char} {s : Signature} (h : Spells cs s) : s.WellFormed := by
  have read {taken : List Char} (isIdentifier : IsIdentifier taken) :
      IsIdentifier (String.ofList taken).toList := by
    rwa [String.toList_ofList]
  cases h with
  | property isType isName => exact ⟨read isType, read isName, by rintro _ ⟨⟩⟩
  | method isType isName parameters =>
    refine ⟨read isType, read isName, ?_⟩
    rintro _ ⟨⟩
    exact parameters.areTypeNames

theorem isBlank_of_identifierChar (c : Char) (h : isIdentifierChar c = true) :
    Text.isBlank c = false := by
  refine Bool.eq_false_iff.mpr fun blank => ?_
  rw [isIdentifierChar, Text.isAlphanumeric_of_isBlank blank, Bool.false_or, beq_iff_eq] at h
  subst h
  exact absurd blank (by decide)

theorem IsIdentifier.reverse {cs : List Char} (h : IsIdentifier cs) : IsIdentifier cs.reverse :=
  ⟨mt List.reverse_eq_nil_iff.mp h.1, fun c hc => h.2 c (List.mem_reverse.mp hc)⟩

theorem ParameterList.exists_closed {cs : List Char} {types : List String}
    (h : ParameterList cs types) : ∃ opened, cs = opened ++ [')'] := by
  cases h with
  | @empty blanks => exact ⟨blanks ++ ['('], by simp⟩
  | @filled blanks inside => exact ⟨blanks ++ '(' :: inside, by simp⟩

/-- Nothing of a signature is white space around it. -/
theorem Spells.trims {cs : List Char} {s : Signature} (h : Spells cs s) : Trims cs cs := by
  refine ⟨⟨[], [], List.forall_mem_nil _, List.forall_mem_nil _, by simp⟩, ?_, ?_⟩
  · cases h with
    | property isType => exact isType.startsOutside isBlank_of_identifierChar _
    | method isType => exact isType.startsOutside isBlank_of_identifierChar _
  · cases h with
    | @property type name isType isName =>
      have last := isName.reverse.startsOutside isBlank_of_identifierChar ('.' :: type.reverse)
      simpa using last
    | method isType isName parameters =>
      obtain ⟨opened, rfl⟩ := parameters.exists_closed
      have closed : Text.isBlank ')' = false := by decide
      simpa [Text.startsOutside_cons] using closed

theorem WellFormed.ofText_text {s : Signature} (h : s.WellFormed) : ofText s.text = .ok s := by
  have spelled := h.spells
  rwa [ofText_eq_ok_iff, spelled.trims.eq_trim]

theorem wellFormed_ofCall {declaringType name : String} {types : List ValueType}
    (isType : IsIdentifier declaringType.toList) (isName : IsIdentifier name.toList)
    (areTypes : ∀ type ∈ types, ∀ entity ∈ type.entityNames, IsTypeName entity.toList) :
    (ofCall declaringType name types).WellFormed := by
  refine ⟨isType, isName, ?_⟩
  rintro _ ⟨⟩
  refine List.forall_mem_map.mpr fun type mem => ?_
  exact isTypeName_name (areTypes type mem)

/-- The text of a well-formed signature is read back as the signature, and a call whose entities
have type names for names has such a signature. Whatever is read from a text is well formed, so to
read, to write and to read again is to read. -/
theorem text_read_back :
    (∀ s : Signature, s.WellFormed → ofText s.text = .ok s) ∧
    (∀ declaringType name (types : List ValueType), IsIdentifier declaringType.toList →
      IsIdentifier name.toList →
      (∀ type ∈ types, ∀ entity ∈ type.entityNames, IsTypeName entity.toList) →
      ofText (ofCall declaringType name types).text = .ok (ofCall declaringType name types)) ∧
    ∀ input s, ofText input = .ok s → s.WellFormed ∧ ofText s.text = .ok s := by
  refine ⟨fun s h => h.ofText_text, fun declaringType name types isType isName areTypes => ?_,
    fun input s h => ?_⟩
  · exact (wellFormed_ofCall isType isName areTypes).ofText_text
  · have wellFormed := (ofText_eq_ok_iff.mp h).wellFormed
    exact ⟨wellFormed, wellFormed.ofText_text⟩

/-- A call with types inside types, a property beside a method without parameters, and a text with
blanks in it. -/
theorem joinCalls_read_back :
    ofText (ofCall "String" "Join" [.nullable .int32, .sequence (.entity "Cook")]).text =
      .ok (method "String" "Join" ["Nullable<Int32>", "Sequence<Cook>"]) ∧
    ofText (property "String" "Length").text = .ok (property "String" "Length") ∧
    ofText (method "String" "Length" []).text = .ok (method "String" "Length" []) ∧
    ∃ s, ofText " String.Join ( Nullable<Int32>\t,Cook) " = .ok s ∧
      s.text = "String.Join(Nullable<Int32>, Cook)" ∧ ofText s.text = .ok s := by
  obtain ⟨written, called, read⟩ := text_read_back
  have blanks : ofText " String.Join ( Nullable<Int32>\t,Cook) " =
      .ok (method "String" "Join" ["Nullable<Int32>", "Cook"]) := by decide +kernel
  have string : IsIdentifier "String".toList := by decide +kernel
  have join : IsIdentifier "Join".toList := by decide +kernel
  have length : IsIdentifier "Length".toList := by decide +kernel
  refine ⟨called "String" "Join" [.nullable .int32, .sequence (.entity "Cook")] string join
    (by decide +kernel), ?_, ?_, _, blanks, by decide +kernel, (read _ _ blanks).2⟩
  · exact written _ ⟨string, length, by rintro _ ⟨⟩⟩
  · exact written _ ⟨string, length, by rintro _ ⟨⟩; exact List.forall_mem_nil _⟩

end Method.Signature

end Comprehension
