import Comprehension.Proofs.Acceptance
import Comprehension.Proofs.Numbering
import Comprehension.Proofs.Wording

/-!
The text of a command is lexically closed, whatever names it carries: every name and every quoted
text is read back as one token, parentheses are balanced, no comment starts and no statement ends.
-/
namespace Comprehension.Command

open Lexing

/-- The name that a piece carries. -/
def Piece.name? : Piece → Option String
  | .identifier name => some name
  | _ => none

/-- The names among pieces, in order. -/
def identifiers (pieces : List Piece) : List String := pieces.filterMap Piece.name?

/-- The characters of pieces that follow `before` parameters. -/
def written (before : Nat) (pieces : List Piece) : List Char :=
  (spelled .sqlServer before pieces).flatMap fun piece => piece.2.toList

theorem written_cons (before : Nat) (piece : Piece) (rest : List Piece) :
    written before (piece :: rest) = (piece.spelling .sqlServer before).toList ++
      written (if piece.value?.isSome then before + 1 else before) rest := by
  simp [written, spelled]

theorem written_append (before : Nat) (a b : List Piece) :
    written before (a ++ b) = written before a ++ written (before + (values a).length) b := by
  induction a generalizing before with
  | nil => rfl
  | cons piece a ih =>
    rw [List.cons_append, written_cons, written_cons, ih, List.append_assoc]
    cases piece <;> simp [Nat.add_comm, Nat.add_assoc]

theorem identifiers_append (a b : List Piece) :
    identifiers (a ++ b) = identifiers a ++ identifiers b := by
  simp [identifiers]

theorem toList_text_ofPieces (pieces : List Piece) :
    (ofPieces .sqlServer pieces).text.toList = written 0 pieces := by
  rw [ofPieces_eq, String.toList_join, List.flatMap_map]
  rfl

/-- A name is read back as it was. -/
theorem reads_quote (name : String) (depth : Nat) :
    Reads depth depth [name] (Dialect.sqlServer.quote name).toList := by
  have read := reads_enclosed .bracket name depth
  rwa [names, List.filterMap_cons, Delimiter.token, String.ofList_toList] at read

/-- A column is read as the name of its owner, a dot and its own name. -/
theorem reads_columnPieces (owner name : String) (before depth : Nat) :
    Reads depth depth (identifiers (columnPieces owner name))
      (written before (columnPieces owner name)) := by
  have dotted {found : List String} {last : List Char} (h : Reads depth depth found last) :
      Reads depth depth ([owner] ++ found)
        ((Dialect.sqlServer.quote owner).toList ++ (".".toList ++ last)) :=
    (reads_quote owner depth).separated rfl rfl h
  by_cases star : name = "*"
  · have bare : Reads depth depth [] "*".toList := ⟨[.mark '*'], rfl, rfl, by decide, rfl⟩
    simpa [columnPieces, star, identifiers, List.filterMap_cons, Piece.name?, written, spelled,
      Piece.spelling] using
      dotted bare
  · simpa [columnPieces, star, identifiers, List.filterMap_cons, Piece.name?, written, spelled,
      Piece.spelling] using
      dotted (reads_quote name depth)

theorem reads_placeholder (number depth : Nat) :
    Reads depth depth [] (Dialect.sqlServer.placeholder number).toList := by
  have digits := reads_separator (isSeparator_repr number) (nesting_repr number depth)
  have marked : Reads depth depth [] ([] ++ ("@".toList ++ number.repr.toList)) :=
    (reads_nil depth).separated rfl rfl digits
  simpa [Dialect.placeholder] using marked

variable {C : String → String → Prop} {pieces : List Piece}

theorem Word.reads (h : Word C pieces) (before depth : Nat) :
    Reads depth depth (identifiers pieces) (written before pieces) := by
  have alone {piece : Piece}
      (h : Reads depth depth (identifiers [piece]) (piece.spelling .sqlServer before).toList) :
      Reads depth depth (identifiers [piece]) (written before [piece]) := by
    rw [written_cons]
    simpa [written, spelled] using h
  cases h with
  | nothing => exact reads_nil depth
  | identifier name => exact alone (reads_quote name depth)
  | literal text => exact alone (reads_enclosed .quote text depth)
  | concat =>
    have plus : Reads depth depth [] "+".toList := reads_separator rfl rfl
    exact alone plus
  | parameter value => exact alone (reads_placeholder _ depth)
  | text closed whole => exact alone (closed.anywhere depth)
  | column read => exact reads_columnPieces _ _ before depth

theorem isSeparator_of_divides {text : String} (h : divides text = true) :
    isSeparator text = true := by
  rw [divides, Bool.and_eq_true] at h
  exact h.1

/-- What is written as a phrase is read to its end, name by name. -/
theorem Phrase.reads {i j : Nat} (h : Phrase C i j pieces) (before : Nat) :
    Reads i j (identifiers pieces) (written before pieces) := by
  induction h generalizing before with
  | word first => exact first.reads before _
  | more first separator nested later ih =>
    rw [identifiers_append, written_append, written_cons]
    exact (first.reads before _).separated (isSeparator_of_divides separator) nested (ih _)

end Comprehension.Command

namespace Comprehension.Sql

open Command

variable {schema : Schema} {native : Bool} {offer C : Offer}

theorem Node.Mapped.legible {n : Node} (h : n.Mapped schema native offer)
    (reads : ∀ a name, offer a name → C a name) : n.Legible C := by
  cases n with
  | expression e =>
    have served := h.served.here
    cases e with
    | named n => exact ⟨Expr.worded_of_wording_eq_none rfl, nofun⟩
    | _ => exact ⟨served.worded, fun read hr => reads _ _ (served.offered read hr)⟩
  | statement s => trivial

/-- The text of a resolved statement is read to its end. -/
theorem Statement.reads_pieces {s : Statement} {nested : Bool} {pieces : List Piece}
    (mapped : (Node.statement s).Mapped schema native offer)
    (h : s.pieces native nested = .ok pieces) (before : Nat) :
    Lexing.Reads 0 0 (identifiers pieces) (written before pieces) := by
  have legible (n : Node) (inside : Node.Inside (.statement s) n) :
      n.Legible fun _ _ => True := by
    obtain ⟨offer', here⟩ := mapped.inside inside
    exact here.legible fun _ _ _ => trivial
  exact (s.balanced_pieces legible nested pieces .root h 0).reads before

end Comprehension.Sql

namespace Comprehension.Query.Model

open Command
open Lexing
open Method.Registry (defaults)

variable {schema : Schema} {options : Options} {m : Model} {c : Command}

/-- The text of a command can be read from left to right: every name and every quoted text is
closed, parentheses are balanced, no statement ends and no comment starts outside of them, and the
names that are read are those that were written. -/
theorem text_readable (h : m.compile defaults (Mapping.ofSchema schema) options = .ok c) :
    ∃ s f pieces tokens, m.statement defaults (Mapping.ofSchema schema) options {} = .ok (s, f) ∧
      s.pieces options.nativeBoolean false = .ok pieces ∧ c = .ofPieces options.dialect pieces ∧
      scan c.text.toList = some tokens ∧ nesting 0 tokens = some 0 ∧ .mark ';' ∉ tokens ∧
      tokens.IsChain (fun t u =>
        ¬ (t = .mark '-' ∧ u = .mark '-') ∧ ¬ (t = .mark '/' ∧ u = .mark '*')) ∧
      names tokens = identifiers pieces := by
  obtain ⟨⟨s, f⟩, compiled, h⟩ := Outcome.bind_eq_ok.mp h
  obtain ⟨pieces, written, h⟩ := Outcome.bind_eq_ok.mp h
  obtain rfl := Outcome.pure_eq_ok.mp h
  obtain ⟨tokens, scanned, nested, tame, named⟩ :=
    Sql.Statement.reads_pieces (mapped_of_statement compiled) written 0
  have text : (ofPieces options.dialect pieces).text.toList = Command.written 0 pieces :=
    toList_text_ofPieces pieces
  exact ⟨s, f, pieces, tokens, compiled, written, rfl, text ▸ scanned, nested, tame.1, tame.2, named⟩

/-- Cooks in a table whose names hold delimiters, a comment and the end of a statement. -/
def awkwardNames : Schema :=
  ⟨[("Cook",
      { table := "Cook]; --", primaryKey := "ID"
        columns := [⟨"ID", none, .int32, false⟩, ⟨"FirstName", some "First'Name(", .string, false⟩]
        relations := [] })]⟩

/-- The cooks that a full-text search finds, in a language with a quote in its name. -/
def foundCooks : Model :=
  let name : Expr := .member (.item "c" (.entity "Cook")) "FirstName" .string
  { main := .table "c" "Cook"
    clauses := [.filter (.call none "FullText" "ContainsFulltext" [.string, .string, .string]
      [name, .constant (.string "chef") .string, .constant (.string "d'oc") .string] .boolean)]
    yield := .select name
    operators := [] }

theorem foundCooks_readable :
    ∃ c tokens, foundCooks.compile defaults (Mapping.ofSchema awkwardNames) {} = .ok c ∧
      c.text = "SELECT [t0].[First'Name(] FROM [Cook]]; --] AS [t0] WHERE " ++
        "CONTAINS([t0].[First'Name(], @1, LANGUAGE 'd''oc')" ∧
      scan c.text.toList = some tokens ∧ nesting 0 tokens = some 0 ∧ .mark ';' ∉ tokens ∧
      names tokens = ["t0", "First'Name(", "Cook]; --", "t0", "t0", "First'Name("] := by
  have compiled : (foundCooks.compile defaults (Mapping.ofSchema awkwardNames) {}).toOption.any
      (fun c => c.text = "SELECT [t0].[First'Name(] FROM [Cook]]; --] AS [t0] WHERE " ++
        "CONTAINS([t0].[First'Name(], @1, LANGUAGE 'd''oc')") = true := by
    decide +kernel
  obtain ⟨c, compiled, text⟩ := Outcome.exists_of_any compiled
  have text := of_decide_eq_true text
  obtain ⟨s, f, pieces, tokens, -, -, -, scanned, nested, ended, -, -⟩ := text_readable compiled
  refine ⟨c, tokens, compiled, text, scanned, nested, ended, ?_⟩
  have read : (scan c.text.toList).map names =
      some ["t0", "First'Name(", "Cook]; --", "t0", "t0", "First'Name("] := by
    rw [text]
    decide +kernel
  rw [scanned] at read
  exact Option.some.inj read

end Comprehension.Query.Model
