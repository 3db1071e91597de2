import Comprehension.Proofs.Emission
import Comprehension.Proofs.Lexing

/-!
How the pieces of a command are put together. A phrase is a sequence of words with separators
between them: names, texts, parameters and columns never stand next to each other, and every text
that a query brings along is a word of its own. What a statement is written as is a phrase.
-/
namespace Comprehension.Command

open Lexing

/-- Whether a text keeps words apart; a dot joins the parts of a column instead. -/
def divides (text : String) : Bool := isSeparator text && text.toList ≠ ['.']

/-- What stands between two separators. The columns that are read satisfy a condition. -/
inductive Word (C : String → String → Prop) : List Piece → Prop where
  | nothing : Word C []
  | identifier (name : String) : Word C [.identifier name]
  | literal (text : String) : Word C [.literal text]
  | concat : Word C [.concat]
  | parameter (value : Value) : Word C [.parameter value]
  | text {text : String} (closed : Reads 0 0 [] text.toList) (whole : text ≠ ".") :
      Word C [.text text]
  | column {owner name : String} (read : name ≠ "*" → C owner name) :
      Word C (columnPieces owner name)

/-- Words with separators between them, from one nesting of parentheses to another. -/
inductive Phrase (C : String → String → Prop) : Nat → Nat → List Piece → Prop where
  | word {depth : Nat} {word : List Piece} (first : Word C word) : Phrase C depth depth word
  | more {i j k : Nat} {word rest : List Piece} {text : String} (first : Word C word)
      (separator : divides text = true) (nested : nesting i (marks text) = some j)
      (later : Phrase C j k rest) : Phrase C i k (word ++ .text text :: rest)

/-- Nothing, or a phrase behind a separator. -/
inductive Tail (C : String → String → Prop) : Nat → Nat → List Piece → Prop where
  | nothing {depth : Nat} : Tail C depth depth []
  | more {i j k : Nat} {rest : List Piece} {text : String} (separator : divides text = true)
      (nested : nesting i (marks text) = some j) (later : Phrase C j k rest) :
      Tail C i k (.text text :: rest)

variable {C : String → String → Prop} {i j k depth : Nat} {a b rest : List Piece} {text : String}

theorem Phrase.append (h : Phrase C i j a) (t : Tail C j k b) : Phrase C i k (a ++ b) := by
  induction h with
  | word first =>
    cases t with
    | nothing =>
      rw [List.append_nil]
      exact .word first
    | more separator nested later => exact .more first separator nested later
  | more first separator nested later ih =>
    rw [List.append_assoc]
    exact .more first separator nested (ih t)

theorem Tail.phrase (h : Tail C i j a) : Phrase C i j a := by
  cases h with
  | nothing => exact .word .nothing
  | more separator nested later => exact .more .nothing separator nested later

theorem Tail.append (h : Tail C i j a) (t : Tail C j k b) : Tail C i k (a ++ b) := by
  cases h with
  | nothing => exact t
  | more separator nested later => exact .more separator nested (later.append t)

theorem Phrase.lead (separator : divides text = true) (nested : nesting i (marks text) = some j)
    (later : Phrase C j k rest) : Phrase C i k (.text text :: rest) :=
  (Tail.more separator nested later).phrase

theorem Tail.last (separator : divides text = true)
    (nested : nesting i (marks text) = some j) : Tail C i j [.text text] :=
  .more separator nested (.word .nothing)

/-- A phrase that closes all parentheses that it opens. -/
def Balanced (C : String → String → Prop) (pieces : List Piece) : Prop :=
  ∀ depth, Phrase C depth depth pieces

/-- Nothing, or a balanced phrase behind a separator. -/
def Trails (C : String → String → Prop) (pieces : List Piece) : Prop :=
  ∀ depth, Tail C depth depth pieces

theorem Balanced.append (h : Balanced C a) (t : Trails C b) : Balanced C (a ++ b) :=
  fun depth => (h depth).append (t depth)

theorem Trails.append (h : Trails C a) (t : Trails C b) : Trails C (a ++ b) :=
  fun depth => (h depth).append (t depth)

section Builders

theorem balanced_word (h : Word C a) : Balanced C a := fun _ => .word h

theorem balanced_text (closed : Reads 0 0 [] text.toList) (whole : text ≠ ".") :
    Balanced C [.text text] := balanced_word (.text closed whole)

theorem balanced_null : Balanced C [.text "NULL"] :=
  balanced_text ⟨_, rfl, rfl, by decide, rfl⟩ (by decide)

theorem balanced_commas {items : List (List Piece)} (h : ∀ item ∈ items, Balanced C item) :
    Balanced C (commas items) := by
  intro depth
  induction items with
  | nil => exact .word .nothing
  | cons first later ih =>
    obtain ⟨here, below⟩ := List.forall_mem_cons.mp h
    cases later with
    | nil => simpa [commas, List.intercalate] using here depth
    | cons second later =>
      rw [commas_cons_cons, List.append_assoc]
      exact (here depth).append (.more rfl rfl (ih below))

theorem balanced_valuePieces (value : Value) : Balanced C (valuePieces value) := by
  unfold valuePieces
  split
  · exact balanced_null
  · exact balanced_word (.parameter value)

theorem isDigit_of_mem_toString {n : Int} {c : Char} (h : c ∈ (toString n).toList) :
    c = '-' ∨ c.isDigit = true := by
  have digit {n : Nat} (h : c ∈ n.repr.toList) : c.isDigit = true := by
    rw [Nat.toList_repr] at h
    exact Nat.isDigit_of_mem_toDigits (by decide) (by decide) h
  cases n with
  | ofNat n => exact .inr (digit h)
  | negSucc n =>
    have signed : c = '-' ∨ c ∈ (n + 1).repr.toList := by simpa [toString, Int.repr] using h
    exact signed.imp_right digit

/-- A number is none of the texts that hold something else than digits. -/
theorem toString_ne {n : Int} {text : String} {c : Char} (mem : c ∈ text.toList)
    (sign : c ≠ '-') (digit : c.isDigit = false) : toString n ≠ text := by
  rintro rfl
  rcases isDigit_of_mem_toString mem with same | same
  · exact sign same
  · rw [digit] at same
    cases same

theorem balanced_literalPiece (l : Sql.Literal) : Balanced C [literalPiece l] := by
  cases l with
  | int n =>
    exact balanced_text (reads_int n 0) (toString_ne (c := '.') (by decide) (by decide) rfl)
  | string s => exact balanced_word (.literal s)
  | null => exact balanced_null

theorem word_operatorPiece (op : Sql.BinaryOp) : Word C [operatorPiece op] := by
  cases op with
  | concat => exact .concat
  | _ => exact .text ⟨_, rfl, rfl, by decide, rfl⟩ (by decide)

theorem balanced_entityColumn {tableAlias : String} {c : Sql.Column}
    {readName writtenName : Option String} (read : C tableAlias (Sql.exposedName readName c.name)) :
    Balanced C (entityColumn tableAlias readName writtenName c) := by
  have column := balanced_word (.column fun _ => read)
  unfold entityColumn
  split
  · exact balanced_word (.column fun star => absurd rfl star)
  · refine column.append fun depth => ?_
    split
    · exact .nothing
    · exact .more rfl rfl (.word (.identifier _))

theorem balanced_entityPieces {tableAlias : String} {e : Sql.Entity}
    {readName writtenName : Option String}
    (read : ∀ c ∈ e.columns, C tableAlias (Sql.exposedName readName c.name)) :
    Balanced C (entityPieces tableAlias e readName writtenName) := by
  refine balanced_commas fun item hi => ?_
  obtain ⟨c, hc, rfl⟩ := List.mem_map.mp hi
  exact balanced_entityColumn (read c hc)

theorem balanced_groupedEntity {e : Sql.Entity} (read : ∀ c ∈ e.columns, C c.owner c.name) :
    Balanced C (groupedEntity e) := by
  refine balanced_commas fun item hi => ?_
  obtain ⟨c, hc, rfl⟩ := List.mem_map.mp hi
  exact balanced_word (.column fun _ => read c hc)

/-- An operand between an opening text and a closing one. -/
theorem Balanced.enclose (h : Balanced C a) {opening closing : String}
    (ho : divides opening = true) (hc : divides closing = true)
    (opens : ∀ depth, nesting depth (marks opening) = some (depth + 1))
    (closes : ∀ depth, nesting (depth + 1) (marks closing) = some depth) :
    Balanced C ([Piece.text opening] ++ a ++ [Piece.text closing]) := by
  intro depth
  rw [List.append_assoc]
  exact .lead ho (opens depth) ((h _).append (.last hc (closes depth)))

/-- An escaped text is a phrase between parentheses. -/
theorem enclosed_escapePieces (h : Balanced C a) :
    ∃ inner, Balanced C inner ∧
      escapePieces a = [Piece.text "REPLACE("] ++ inner ++ [Piece.text ")"] := by
  let replacement (c : Char) : List Piece :=
    [.text ",", .literal (String.singleton c), .text ",",
      .literal (String.ofList [Method.Pattern.escapeChar, c])]
  have replaced {value : List Piece} (hv : Balanced C value) (c : Char) :
      Balanced C (value ++ replacement c) :=
    hv.append fun _ => .more rfl rfl (.more (.literal _) rfl rfl (.word (.literal _)))
  have enclosed {value : List Piece} (hv : Balanced C value) :
      Balanced C ([Piece.text "REPLACE("] ++ value ++ [Piece.text ")"]) :=
    hv.enclose rfl rfl (fun _ => rfl) fun _ => rfl
  have slashes := enclosed (replaced h Method.Pattern.escapeChar)
  have percents := enclosed (replaced slashes '%')
  have underscores := enclosed (replaced percents '_')
  refine ⟨_, replaced underscores '[', ?_⟩
  simp [escapePieces, Method.Pattern.wildcards, replacement]

theorem balanced_escapePieces (h : Balanced C a) : Balanced C (escapePieces a) := by
  obtain ⟨inner, balanced, same⟩ := enclosed_escapePieces h
  rw [same]
  exact balanced.enclose rfl rfl (fun _ => rfl) fun _ => rfl

theorem balanced_orderingPieces (e : Sql.Expr) (direction : Query.Direction) (h : Balanced C a) :
    Balanced C (orderingPieces e direction a) := by
  refine Balanced.append ?_ fun depth => ?_
  · split
    · exact h.enclose rfl rfl (fun _ => rfl) fun _ => rfl
    · exact h.enclose rfl rfl (fun _ => rfl) fun _ => rfl
    · exact h
  · cases direction with
    | asc => exact .last rfl rfl
    | desc => exact .last rfl rfl

theorem trails_clause {keyword : String} (separator : divides keyword = true)
    (level : ∀ depth, nesting depth (marks keyword) = some depth) {pieces : Option (List Piece)}
    (h : ∀ ps, pieces = some ps → Balanced C ps) : Trails C (clause keyword pieces) := by
  intro depth
  cases pieces with
  | none => exact .nothing
  | some ps => exact .more separator (level depth) (h ps rfl depth)

theorem separator_attachment (source : Sql.Source) (kind : Sql.JoinKind) :
    divides (attachment source kind) = true ∧
      ∀ depth, nesting depth (marks (attachment source kind)) = some depth := by
  cases source <;> cases kind <;> dsimp only [attachment] <;> exact ⟨rfl, fun _ => rfl⟩

theorem trails_attachments {tables : List (Sql.JoinKind × Sql.Source × List Piece)}
    (h : ∀ table ∈ tables, Balanced C table.2.2) :
    Trails C (tables.flatMap fun (kind, source, pieces) =>
      .text (attachment source kind) :: pieces) := by
  induction tables with
  | nil => exact fun _ => .nothing
  | cons table rest ih =>
    obtain ⟨kind, source, pieces⟩ := table
    obtain ⟨here, below⟩ := List.forall_mem_cons.mp h
    rw [List.flatMap_cons]
    obtain ⟨separator, level⟩ := separator_attachment source kind
    exact Trails.append (fun depth => .more separator (level depth) (here depth)) (ih below)

theorem balanced_attached {tables : List (Sql.JoinKind × Sql.Source × List Piece)}
    (h : ∀ table ∈ tables, Balanced C table.2.2) {ps : List Piece}
    (ha : attached tables = some ps) : Balanced C ps := by
  cases tables with
  | nil => cases ha
  | cons table rest =>
    obtain ⟨here, below⟩ := List.forall_mem_cons.mp h
    obtain rfl := Option.some.inj ha
    exact here.append (trails_attachments below)

end Builders

end Comprehension.Command

namespace Comprehension.Sql

open Command
open Lexing
open Outcome (bind_eq_ok pure_eq_ok)

variable {C : String → String → Prop}

theorem balanced_statementPieces {isDistinct : Bool} {top : Option (List Piece)}
    {projection : List Piece} {tables : List (JoinKind × Source × List Piece)}
    {condition grouping : Option (List Piece)} {orderings : List (List Piece)}
    (ht : ∀ ps, top = some ps → Balanced C ps) (hp : Balanced C projection)
    (hf : ∀ table ∈ tables, Balanced C table.2.2) (hc : ∀ ps, condition = some ps → Balanced C ps)
    (hg : ∀ ps, grouping = some ps → Balanced C ps) (ho : ∀ item ∈ orderings, Balanced C item) :
    Balanced C (statementPieces isDistinct top projection tables condition grouping orderings) := by
  have ordered : Trails C
      (if orderings.isEmpty then [] else [Piece.text " ORDER BY "] ++ commas orderings) := by
    intro depth
    split
    · exact .nothing
    · exact .more rfl rfl (balanced_commas ho depth)
  have sources : Trails C (clause " FROM " (attached tables)) :=
    trails_clause rfl (fun _ => rfl) fun _ => balanced_attached hf
  have filtered : Trails C (clause " WHERE " condition) := trails_clause rfl (fun _ => rfl) hc
  have grouped : Trails C (clause " GROUP BY " grouping) := trails_clause rfl (fun _ => rfl) hg
  have selected : Balanced C (projection ++ (clause " FROM " (attached tables) ++
      (clause " WHERE " condition ++ (clause " GROUP BY " grouping ++
        if orderings.isEmpty then [] else [Piece.text " ORDER BY "] ++ commas orderings)))) :=
    hp.append (sources.append (filtered.append (grouped.append ordered)))
  intro depth
  simp only [statementPieces, List.append_assoc]
  refine .lead rfl rfl ?_
  have limited := selected depth
  cases top with
  | none =>
    split
    · exact .lead rfl rfl limited
    · exact limited
  | some top =>
    have limited : Phrase C depth depth
        ([Piece.text "TOP ("] ++ (top ++ ([Piece.text ") "] ++ _))) :=
      .lead rfl rfl ((ht top rfl (depth + 1)).append (.more rfl rfl limited))
    simp only [List.append_assoc]
    split
    · exact .lead rfl rfl limited
    · exact limited

end Comprehension.Sql
