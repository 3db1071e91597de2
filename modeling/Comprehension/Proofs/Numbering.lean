import Comprehension.Proofs.Emission

/-!
The numbering of parameters. Each piece of a command has a text of its own, and the text of the
command is these texts one after the other: the parameters among them are `@1`, `@2` and so on,
whatever stands between them, and their values are those that the statement emits.
-/
namespace Comprehension.Command

/-- The text of a piece that follows `before` parameters. -/
def Piece.spelling (dialect : Dialect) (before : Nat) : Piece → String
  | .text written => written
  | .identifier name => dialect.quote name
  | .literal written => dialect.quoteText written
  | .concat => dialect.concatOperator
  | .parameter _ => dialect.placeholder (before + 1)

/-- Pieces with their texts, after `before` parameters. -/
def spelled (dialect : Dialect) (before : Nat) : List Piece → List (Piece × String)
  | [] => []
  | piece :: rest =>
    (piece, piece.spelling dialect before) ::
      spelled dialect (if piece.value?.isSome then before + 1 else before) rest

/-- The names of `count` parameters after the first `before` ones. -/
def placeholders (dialect : Dialect) (before count : Nat) : List String :=
  (List.range' (before + 1) count).map dialect.placeholder

theorem placeholders_spelled (dialect : Dialect) (before : Nat) (pieces : List Piece) :
    ((spelled dialect before pieces).filter (·.1.value?.isSome)).map (·.2) =
      placeholders dialect before (values pieces).length := by
  induction pieces generalizing before with
  | nil => rfl
  | cons piece rest ih =>
    cases piece with
    | parameter value =>
      have later := ih (before + 1)
      simp only [placeholders] at later
      simp [spelled, placeholders, Piece.spelling, List.filter_cons, later,
        List.range'_succ]
    | _ => simpa [spelled] using ih before

/-- What a command looks like after some more pieces. -/
theorem foldl_append (dialect : Dialect) (pieces : List Piece) (c : Command) :
    pieces.foldl (append dialect) c =
      { text := c.text ++ String.join ((spelled dialect c.parameters.length pieces).map (·.2))
        parameters := c.parameters ++ (placeholders dialect c.parameters.length
          (values pieces).length).zipWith Parameter.mk (values pieces) } := by
  induction pieces generalizing c with
  | nil => simp [spelled, placeholders, String.join]
  | cons piece rest ih =>
    rw [List.foldl_cons, ih]
    cases piece with
    | parameter value =>
      simp [append, nextName, spelled, placeholders, Piece.spelling,
        List.range'_succ, String.append_assoc]
    | _ =>
      simp [append, spelled, Piece.spelling, String.append_assoc]

theorem ofPieces_eq (dialect : Dialect) (pieces : List Piece) :
    ofPieces dialect pieces =
      { text := String.join ((spelled dialect 0 pieces).map (·.2))
        parameters := (placeholders dialect 0 (values pieces).length).zipWith Parameter.mk
          (values pieces) } := by
  simp [ofPieces, foldl_append]

theorem names_ofPieces (dialect : Dialect) (pieces : List Piece) :
    (ofPieces dialect pieces).parameters.map (·.name) =
      placeholders dialect 0 (values pieces).length := by
  rw [ofPieces_eq, List.map_zipWith]
  exact (List.map_zip_eq_zipWith (f := Prod.fst)).symm.trans
    (List.map_fst_zip (by simp [placeholders]))

theorem values_ofPieces (dialect : Dialect) (pieces : List Piece) :
    (ofPieces dialect pieces).parameters.map (·.value) = values pieces := by
  rw [ofPieces_eq, List.map_zipWith]
  exact (List.map_zip_eq_zipWith (f := Prod.snd)).symm.trans
    (List.map_snd_zip (by simp [placeholders]))

end Comprehension.Command

namespace Comprehension.Sql

open Command
open Outcome (bind_eq_ok pure_eq_ok)

/-- The parameters of a command are numbered from one in the order in which their placeholders
stand in the text, and carry the values that the statement emits, one for each. -/
theorem Statement.command_parameters {native : Bool} {s : Statement} {c : Command}
    (h : s.command .sqlServer native = .ok c) :
    (∀ (k : Nat) (p : Parameter), c.parameters[k]? = some p → p.name = "@" ++ toString (k + 1)) ∧
    (∃ pieces, s.pieces native false = .ok pieces ∧
      c.text = String.join ((spelled .sqlServer 0 pieces).map (·.2)) ∧
      ((spelled .sqlServer 0 pieces).filter (·.1.value?.isSome)).map (·.2) =
        (List.range' 1 c.parameters.length).map fun k => "@" ++ toString k) ∧
    c.parameters.map (·.value) = s.emitted false := by
  simp only [Statement.command, bind_eq_ok, pure_eq_ok] at h
  obtain ⟨pieces, hp, rfl⟩ := h
  have names := names_ofPieces .sqlServer pieces
  have count : (ofPieces .sqlServer pieces).parameters.length = (values pieces).length := by
    rw [← values_ofPieces .sqlServer, List.length_map]
  refine ⟨?_, ⟨pieces, hp, ?_, ?_⟩, ?_⟩
  · intro k p hk
    have named : ((ofPieces .sqlServer pieces).parameters.map (·.name))[k]? = some p.name := by
      rw [List.getElem?_map, hk]
      rfl
    rw [names, placeholders, List.getElem?_map, Option.map_eq_some_iff] at named
    obtain ⟨number, hnumber, hname⟩ := named
    obtain ⟨_, rfl⟩ := List.getElem?_eq_some_iff.mp hnumber
    rw [← hname]
    simp [Dialect.placeholder, Nat.add_comm]
  · rw [ofPieces_eq]
  · rw [placeholders_spelled, count]
    simp [placeholders, Dialect.placeholder]
  · rw [values_ofPieces]
    exact s.values_pieces native false pieces hp

/-- A limited search in a limited source: the limits, the text looked for and the key. -/
def limitedSearch : Statement :=
  let inner : Statement :=
    { projection := .column ⟨.string, "t0", "Name", false⟩
      tables := [⟨0, .table "Cook" "CookTable" "t0", .inner, []⟩]
      condition := some (.and
        (.like (.column ⟨.string, "t0", "Name", false⟩) (.constant (.string "a%") .string))
        (.binaryOf .lessThan (.constant (.int 7) .int32) (.constant .null .int32)))
      grouping := none
      orderings := [⟨.constant (.int 8) .int32, .asc⟩]
      top := some (.constant (.int 5) .int32)
      isDistinct := false, rowNumber := none, rowOffset := none, shape := .sequence .string }
  { projection := .aggregation .count (.constant (.int 9) .int32) .int32
    tables := [⟨1, .statement "q0" inner, .inner, []⟩]
    condition := some (.equal (.column ⟨.string, "q0", "Name", false⟩) (.constant (.char 'b') .char))
    grouping := none, orderings := [], top := none, isDistinct := false, rowNumber := none
    rowOffset := none, shape := .scalar .int32 }

theorem limitedSearch_command :
    limitedSearch.command .sqlServer false = .ok
      { text := "SELECT COUNT(*) FROM (SELECT TOP (@1) [t0].[Name] FROM [CookTable] AS [t0] WHERE " ++
          "([t0].[Name] LIKE @2 ESCAPE '\\' AND (1 <> 1)) ORDER BY (SELECT @3) ASC) AS [q0] " ++
          "WHERE ([q0].[Name] = @4)"
        parameters := [⟨"@1", .int 5⟩, ⟨"@2", .string "a%"⟩, ⟨"@3", .int 8⟩, ⟨"@4", .char 'b'⟩] } := by
  cbv

theorem limitedSearch_parameters :
    [Value.int 5, .string "a%", .int 8, .char 'b'] = limitedSearch.emitted false :=
  (Statement.command_parameters limitedSearch_command).2.2

end Comprehension.Sql
