import Comprehension.Proofs.LexicalClosure
import Comprehension.Proofs.NormalForm

/-!
Operands, arguments, orderings and limits ask for one value. Resolution keeps entities and names out
of these places at any depth, but not records: a record in such a place is written as several values
with names. Where there is no record, what is written there is one value, with no comma and no name
outside parentheses.
-/
namespace Comprehension.Command

open Lexing

/-- The nesting of parentheses behind a piece. -/
def depthBehind (depth : Nat) : Piece → Nat
  | .text text => if divides text then (nesting depth (marks text)).getD depth else depth
  | _ => depth

/-- The pieces that start outside all parentheses, if a number of them is open before. -/
def outside : Nat → List Piece → List Piece
  | _, [] => []
  | depth, piece :: rest =>
    if depth = 0 then piece :: outside (depthBehind depth piece) rest
    else outside (depthBehind depth piece) rest

/-- One value: outside parentheses there are no commas and no names of columns. -/
def IsOneValue (pieces : List Piece) : Prop :=
  ∀ piece ∈ outside 0 pieces, piece ≠ .text ", " ∧ piece ≠ .text " AS "

instance (pieces : List Piece) : Decidable (IsOneValue pieces) :=
  inferInstanceAs (Decidable (∀ piece ∈ outside 0 pieces, _))

variable {C : String → String → Prop} {i j depth : Nat} {a b : List Piece} {text : String}

theorem outside_append (depth : Nat) (a b : List Piece) :
    outside depth (a ++ b) = outside depth a ++ outside (a.foldl depthBehind depth) b := by
  induction a generalizing depth with
  | nil => rfl
  | cons piece a ih =>
    simp only [List.cons_append, outside, ih, List.foldl_cons]
    split <;> rfl

theorem depthBehind_of_divides (separator : divides text = true)
    (nested : nesting i (marks text) = some j) : depthBehind i (.text text) = j := by
  simp [depthBehind, separator, nested]

/-- A word opens and closes nothing. -/
theorem Word.level (h : Word C a) (depth : Nat) :
    a.foldl depthBehind depth = depth ∧ outside (depth + 1) a = [] := by
  cases h with
  | text closed whole =>
    rename_i text
    have level (depth : Nat) : depthBehind depth (.text text) = depth := by
      by_cases separator : divides text = true
      · obtain ⟨tokens, scanned, nested, -⟩ := closed
        rw [scan_separator (isSeparator_of_divides separator)] at scanned
        obtain rfl := Option.some.inj scanned
        exact depthBehind_of_divides separator (by simpa using nesting_shift depth nested)
      · simp [depthBehind, separator]
    exact ⟨level depth, by simp [outside]⟩
  | column read =>
    have dot : divides "." = false := rfl
    have star : divides "*" = false := rfl
    unfold columnPieces
    split <;> simp [outside, depthBehind, dot, star]
  | _ => simp [outside, depthBehind]

/-- Inside parentheses a phrase shows nothing. -/
theorem Phrase.level (h : Phrase C i j a) :
    a.foldl depthBehind i = j ∧ a.foldl depthBehind (i + 1) = j + 1 ∧ outside (i + 1) a = [] := by
  induction h with
  | word first => exact ⟨(first.level _).1, (first.level _).1, (first.level _).2⟩
  | more first separator nested later ih =>
    obtain ⟨level, deeper, inner⟩ := ih
    have here := depthBehind_of_divides separator nested
    have below := depthBehind_of_divides separator (nesting_shift 1 nested)
    refine ⟨?_, ?_, ?_⟩
    · rw [List.foldl_append, (first.level _).1, List.foldl_cons, here, level]
    · rw [List.foldl_append, (first.level _).1, List.foldl_cons, below, deeper]
    · rw [outside_append, (first.level _).1, (first.level _).2, outside, if_neg (by omega), below,
        inner, List.nil_append]

theorem Balanced.level (h : Balanced C a) (depth : Nat) :
    a.foldl depthBehind depth = depth ∧ outside (depth + 1) a = [] :=
  ⟨(h depth).level.1, (h depth).level.2.2⟩

theorem Balanced.isOneValue_append (balanced : Balanced C a) (ha : IsOneValue a)
    (hb : IsOneValue b) : IsOneValue (a ++ b) := by
  rw [IsOneValue, outside_append, (balanced.level 0).1, List.forall_mem_append]
  exact ⟨ha, hb⟩

theorem isOneValue_singleton {piece : Piece} (comma : piece ≠ .text ", ")
    (label : piece ≠ .text " AS ") : IsOneValue [piece] := by
  simp [IsOneValue, outside, comma, label]

/-- Of what stands between parentheses nothing shows. -/
theorem Balanced.isOneValue_enclose (h : Balanced C a) {opening closing : String}
    (divided : divides opening = true) (opens : nesting 0 (marks opening) = some 1) :
    IsOneValue ([Piece.text opening] ++ a ++ [Piece.text closing]) := by
  have shown : outside 0 ([Piece.text opening] ++ a ++ [Piece.text closing]) =
      [Piece.text opening] := by
    rw [List.append_assoc, outside_append, List.foldl_cons, List.foldl_nil,
      depthBehind_of_divides divided opens, outside_append, (h.level 0).2, (h.level 1).1]
    rfl
  rw [IsOneValue, shown, List.forall_mem_singleton]
  constructor
  all_goals
    rintro ⟨⟩
    exact absurd opens (by decide)

theorem isOneValue_cons {piece : Piece} (level : depthBehind 0 piece = 0)
    (comma : piece ≠ .text ", ") (label : piece ≠ .text " AS ") (h : IsOneValue a) :
    IsOneValue (piece :: a) := by
  rw [IsOneValue, outside, if_pos rfl, level, List.forall_mem_cons]
  exact ⟨⟨comma, label⟩, h⟩

theorem Trails.balanced (h : Trails C a) : Balanced C a := fun depth => (h depth).phrase

theorem isOneValue_columnPieces (owner name : String) : IsOneValue (columnPieces owner name) := by
  have shown : outside 0 (columnPieces owner name) = columnPieces owner name := by
    have dot : divides "." = false := rfl
    simp [columnPieces, outside, depthBehind, dot]
  rw [IsOneValue, shown]
  unfold columnPieces
  split <;> simp

theorem isOneValue_valuePieces (value : Value) : IsOneValue (valuePieces value) := by
  unfold valuePieces
  split
  · exact isOneValue_singleton (by decide) (by decide)
  · exact isOneValue_singleton nofun nofun

end Comprehension.Command

namespace Comprehension.Sql

open Command
open Lexing
open Outcome (bind_eq_ok pure_eq_ok)

namespace Kind

/-- Kinds of nodes that stand for several columns, or for a column under a name. -/
def isMany : Kind → Bool
  | entity | entityReference | compound | named => true
  | _ => false

/-- Kinds of nodes that are written in parentheses. -/
def isEnclosed : Kind → Bool
  | binary | likeEscape | logical | not | function | convert | aggregation | rowNumber
  | subStatement => true
  | _ => false

end Kind

/-- The operands that have to be one value. -/
def Expr.singles : Expr → List Expr
  | .binary _ left right _ => [left, right]
  | .like expression pattern => [expression, pattern]
  | .likeEscape e | .convert _ e _ => [e]
  | .case branches otherwise _ => branches.map Prod.snd ++ otherwise.toList
  | .function _ args _ _ => args
  | .aggregation aggregate e _ => if aggregate = .count then [] else [e]
  | .rowNumber orderings => orderings.map Ordering.expression
  | _ => []

/-- What stands where one value is asked for. -/
def Node.singles : Node → List Expr
  | .expression e => e.singles
  | .statement s =>
    s.orderings.map Ordering.expression ++ s.top.toList ++ s.rowNumber.toList ++ s.rowOffset.toList

mutual

/-- Whether nothing that is written outside parentheses is a record or a test of several columns. -/
def Expr.isPlain : Expr → Bool
  | .compound _ => false
  | .like expression pattern => expression.isPlain && pattern.isPlain
  | .case branches otherwise _ => plainBranches branches && plainOption otherwise
  | _ => true

def plainBranches : List (Expr × Expr) → Bool
  | [] => true
  | (test, value) :: rest =>
    (!test.kind.isMany && test.isPlain) && value.isPlain && plainBranches rest

def plainOption : Option Expr → Bool
  | none => true
  | some e => e.isPlain

end

section Writing

variable {C : Offer} {root : Node} {native : Bool}

theorem isOneValue_customText {text : String} (h : Kind.customText.Knows text) :
    IsOneValue [.text text] := by
  have language {spelled : String} : IsOneValue [.text ("LANGUAGE " ++ spelled)] := by
    refine isOneValue_singleton (fun same => ?_) fun same => ?_
    all_goals
      have first := congrArg (fun text => text.toList.head?) (Piece.text.inj same)
      simp at first
  rcases h with h | ⟨code, rfl⟩ | ⟨name, rfl⟩
  · have listed : ∀ text ∈ Vocabulary.dateParts, text ≠ ", " ∧ text ≠ " AS " := by decide
    obtain ⟨comma, label⟩ := listed text h
    exact isOneValue_singleton (comma <| Piece.text.inj ·) (label <| Piece.text.inj ·)
  · exact language
  · exact language

theorem isOneValue_literalPiece (l : Literal) : IsOneValue [literalPiece l] := by
  cases l with
  | int n =>
    refine isOneValue_singleton (fun same => ?_) fun same => ?_
    · exact toString_ne (c := ',') (by decide) (by decide) rfl (Piece.text.inj same)
    · exact toString_ne (c := ' ') (by decide) (by decide) rfl (Piece.text.inj same)
  | string s => exact isOneValue_singleton nofun nofun
  | null => exact isOneValue_singleton (by decide) (by decide)

theorem isOneValue_likePieces {value pattern : List Piece} (hv : Balanced C value)
    (hp : Balanced C pattern) (one : IsOneValue value) (against : IsOneValue pattern) :
    IsOneValue (value ++ [.text " LIKE "] ++ pattern ++
      [.text " ESCAPE ", .literal (String.singleton Method.Pattern.escapeChar)]) := by
  simp only [List.append_assoc]
  refine hv.isOneValue_append one (isOneValue_cons rfl (by decide) (by decide) ?_)
  exact hp.isOneValue_append against (by decide)

theorem isOneValue_logicalPieces (op : LogicalOp) {left right : List Piece} (hl : Balanced C left)
    (hr : Balanced C right) : IsOneValue ([.text "("] ++ left ++
      [.text (" " ++ logicalText op ++ " ")] ++ right ++ [.text ")"]) := by
  have inner : Balanced C (left ++ ([Piece.text (" " ++ logicalText op ++ " ")] ++ right)) := by
    cases op <;> exact hl.append fun depth => .more rfl rfl (hr depth)
  simpa only [List.append_assoc] using inner.isOneValue_enclose rfl rfl

theorem isOneValue_casePieces {branches : List Piece} {otherwise : Option (List Piece)}
    (balanced : Balanced C branches) (tests : IsOneValue branches)
    (ending : ∀ value, otherwise = some value → Balanced C value ∧ IsOneValue value) :
    IsOneValue ([.text "CASE"] ++ branches ++ clause " ELSE " otherwise ++ [.text " END"]) := by
  simp only [List.append_assoc]
  refine isOneValue_cons rfl (by decide) (by decide) (balanced.isOneValue_append tests ?_)
  cases otherwise with
  | none => decide
  | some value =>
    obtain ⟨level, one⟩ := ending value rfl
    refine isOneValue_cons rfl (by decide) (by decide) ?_
    exact level.isOneValue_append one (by decide)

/-- An expression that is written in parentheses is one value, whatever stands in them. -/
theorem Expr.isOneValue_enclosed (legible : ∀ n, Node.Inside root n → n.Legible C) {e : Expr}
    {pieces : List Piece} (enclosed : e.kind.isEnclosed = true)
    (inside : Node.Inside root (.expression e)) (h : e.pieces native .projected = .ok pieces) :
    IsOneValue pieces := by
  have balanced {operand : Expr} {ps : List Piece} (ho : operand ∈ e.operands)
      (written : operand.pieces native .projected = .ok ps) : Balanced C ps :=
    operand.balanced_pieces legible _ ps (inside.operand ho) written
  cases e with
  | binary op left right type =>
    rcases enclosed_binaryPieces (fun _ => balanced (by simp [operands, slots]))
      (fun _ => balanced (by simp [operands, slots])) h with rfl | ⟨inner, closing, level, -, -, rfl⟩
    · exact isOneValue_singleton (by decide) (by decide)
    · exact level.isOneValue_enclose rfl rfl
  | likeEscape value =>
    simp only [Expr.pieces, bind_eq_ok, pure_eq_ok] at h
    obtain ⟨v, hv, rfl⟩ := h
    obtain ⟨inner, level, same⟩ := enclosed_escapePieces (balanced List.mem_cons_self hv)
    rw [same]
    exact level.isOneValue_enclose rfl rfl
  | logical op left right =>
    simp only [Expr.pieces, bind_eq_ok, pure_eq_ok] at h
    obtain ⟨l, hl, r, hr, rfl⟩ := h
    exact isOneValue_logicalPieces op
      (balanced (by simp [operands, slots]) (pieces_of_predicatePieces hl))
      (balanced (by simp [operands, slots]) (pieces_of_predicatePieces hr))
  | not operand =>
    simp only [Expr.pieces, bind_eq_ok, pure_eq_ok] at h
    obtain ⟨o, ho, rfl⟩ := h
    exact (balanced List.mem_cons_self (pieces_of_predicatePieces ho)).isOneValue_enclose rfl rfl
  | function name args type isPredicate =>
    simp only [Expr.pieces, bind_eq_ok, pure_eq_ok] at h
    obtain ⟨a, ha, rfl⟩ := h
    have items := balanced_argsPieces legible args a (fun e he =>
      inside.operand (by simp [operands, slots, he])) ha
    obtain ⟨separator, opens⟩ := separator_function ((legible _ inside).1 name rfl)
    exact (balanced_commas items).isOneValue_enclose separator (opens 0)
  | convert target value type =>
    simp only [Expr.pieces, bind_eq_ok, pure_eq_ok] at h
    obtain ⟨v, hv, rfl⟩ := h
    obtain ⟨separator, opens⟩ := separator_convert ((legible _ inside).1 target rfl)
    exact (balanced List.mem_cons_self hv).isOneValue_enclose separator (opens 0)
  | aggregation aggregate value type =>
    simp only [Expr.pieces] at h
    split at h
    · obtain rfl := Except.ok.inj h
      exact isOneValue_singleton (by decide) (by decide)
    · simp only [bind_eq_ok, pure_eq_ok] at h
      obtain ⟨v, hv, rfl⟩ := h
      have level := balanced List.mem_cons_self hv
      cases aggregate <;> exact level.isOneValue_enclose rfl rfl
  | rowNumber orderings =>
    simp only [Expr.pieces, bind_eq_ok, pure_eq_ok] at h
    obtain ⟨o, ho, rfl⟩ := h
    have items := balanced_orderingsPieces legible orderings o (fun ordering mem =>
      inside.operand (ordering_mem_operands mem)) ho
    exact (balanced_commas items).isOneValue_enclose rfl rfl
  | subStatement s =>
    simp only [Expr.pieces, bind_eq_ok, pure_eq_ok] at h
    obtain ⟨ps, hs, rfl⟩ := h
    exact (s.balanced_pieces legible true ps (inside.part List.mem_cons_self) hs).isOneValue_enclose
      rfl rfl
  | _ => cases enclosed

mutual

/-- Where only a record could stand for several values and none does, one value is written. -/
theorem Expr.isOneValue_pieces (legible : ∀ n, Node.Inside root n → n.Legible C)
    (keyed : ∀ e, Node.Inside root (.expression e) → e.keyed = true)
    (single : ∀ n, Node.Inside root n → ∀ e ∈ n.singles, e.kind.isMany = true →
      e.kind = .compound) :
    ∀ (e : Expr) (pieces : List Piece), Node.Inside root (.expression e) →
      (e.kind.isMany = true → e.kind = .compound) → e.isPlain = true →
      e.pieces native .projected = .ok pieces → IsOneValue pieces
  | .column c, pieces, inside, many, plain, h => by
    obtain rfl := Except.ok.inj h
    exact isOneValue_columnPieces c.owner c.name
  | .constant value type, pieces, inside, many, plain, h => by
    obtain rfl := Except.ok.inj h
    exact isOneValue_valuePieces value
  | .literal l, pieces, inside, many, plain, h => by
    obtain rfl := Except.ok.inj h
    exact isOneValue_literalPiece l
  | .customText text type, pieces, inside, many, plain, h => by
    obtain rfl := Except.ok.inj h
    exact isOneValue_customText ((legible _ inside).1 text rfl)
  | .entityConstant type value key, pieces, inside, many, plain, h => by
    have constant := keyed _ inside
    cases key with
    | constant id keyType =>
      obtain rfl := Except.ok.inj h
      exact isOneValue_valuePieces id
    | _ => cases constant
  | .like expression pattern, pieces, inside, many, plain, h => by
    simp only [Expr.pieces, bind_eq_ok, pure_eq_ok] at h
    obtain ⟨v, hv, p, hp, rfl⟩ := h
    have insideValue := inside.operand (show expression ∈ _ by simp [Expr.operands, Expr.slots])
    have insidePattern := inside.operand (show pattern ∈ _ by simp [Expr.operands, Expr.slots])
    obtain ⟨valuePlain, patternPlain⟩ := Bool.and_eq_true_iff.mp plain
    have value := expression.isOneValue_pieces legible keyed single v insideValue
      (single _ inside _ (by simp [Node.singles, Expr.singles])) valuePlain hv
    have against := pattern.isOneValue_pieces legible keyed single p insidePattern
      (single _ inside _ (by simp [Node.singles, Expr.singles])) patternPlain hp
    exact isOneValue_likePieces (expression.balanced_pieces legible _ v insideValue hv)
      (pattern.balanced_pieces legible _ p insidePattern hp) value against
  | .case branches otherwise type, pieces, inside, many, plain, h => by
    simp only [Expr.pieces, bind_eq_ok, pure_eq_ok] at h
    obtain ⟨b, hb, o, ho, rfl⟩ := h
    have insideBranch (branch : Expr × Expr) (mem : branch ∈ branches) :
        Node.Inside root (.expression branch.1) ∧ Node.Inside root (.expression branch.2) := by
      obtain ⟨test, value⟩ := Expr.branch_mem_operands mem otherwise type
      exact ⟨inside.operand test, inside.operand value⟩
    obtain ⟨branchesPlain, otherwisePlain⟩ := Bool.and_eq_true_iff.mp plain
    have tests := isOneValue_branchesPieces legible keyed single branches b (fun branch mem =>
      ⟨(insideBranch branch mem).1, (insideBranch branch mem).2, single _ inside _
        (List.mem_append_left _ (List.mem_map_of_mem mem))⟩) branchesPlain hb
    refine isOneValue_casePieces (trails_branchesPieces legible branches b insideBranch hb).balanced
      tests fun ps written => ?_
    cases otherwise with
    | none =>
      obtain rfl := Except.ok.inj ho
      cases written
    | some e =>
      simp only [optionPieces, bind_eq_ok, pure_eq_ok] at ho
      obtain ⟨ps, hps, rfl⟩ := ho
      obtain rfl := Option.some.inj written
      have insideElse := inside.operand (show e ∈ _ by simp [Expr.operands, Expr.slots])
      exact ⟨e.balanced_pieces legible _ _ insideElse hps,
        e.isOneValue_pieces legible keyed single _ insideElse
          (single _ inside _ (by simp [Node.singles, Expr.singles])) otherwisePlain hps⟩
  | .binary .., _, inside, _, _, h | .likeEscape _, _, inside, _, _, h
  | .logical .., _, inside, _, _, h | .not _, _, inside, _, _, h | .function .., _, inside, _, _, h
  | .convert .., _, inside, _, _, h | .aggregation .., _, inside, _, _, h
  | .rowNumber _, _, inside, _, _, h | .subStatement _, _, inside, _, _, h =>
    Expr.isOneValue_enclosed legible rfl inside h
  | .entity _, _, _, many, _, _ | .entityReference .., _, _, many, _, _
  | .named _, _, _, many, _, _ => nomatch many rfl
  | .compound _, _, _, _, plain, _ => nomatch plain
  | .tableReference _ _, _, _, _, _, h | .member _ _ _, _, _, _, _, h
  | .navigation _ _ _, _, _, _, _, h | .call _, _, _, _, _, h => nomatch h

theorem isOneValue_branchesPieces (legible : ∀ n, Node.Inside root n → n.Legible C)
    (keyed : ∀ e, Node.Inside root (.expression e) → e.keyed = true)
    (single : ∀ n, Node.Inside root n → ∀ e ∈ n.singles, e.kind.isMany = true →
      e.kind = .compound) :
    ∀ (branches : List (Expr × Expr)) (pieces : List Piece),
      (∀ branch ∈ branches, Node.Inside root (.expression branch.1) ∧
        Node.Inside root (.expression branch.2) ∧
        (branch.2.kind.isMany = true → branch.2.kind = .compound)) →
      plainBranches branches = true → branchesPieces native branches = .ok pieces →
      IsOneValue pieces
  | [], pieces, _, _, h => by
    obtain rfl := Except.ok.inj h
    exact List.forall_mem_nil _
  | (test, value) :: rest, pieces, inside, plain, h => by
    simp only [branchesPieces, bind_eq_ok, pure_eq_ok] at h
    obtain ⟨t, ht, v, hv, r, hr, rfl⟩ := h
    obtain ⟨⟨insideTest, insideValue, many⟩, below⟩ := List.forall_mem_cons.mp inside
    obtain ⟨here, restPlain⟩ := Bool.and_eq_true_iff.mp plain
    obtain ⟨testPlain, valuePlain⟩ := Bool.and_eq_true_iff.mp here
    obtain ⟨few, testPlain⟩ := Bool.and_eq_true_iff.mp testPlain
    have written := pieces_of_predicatePieces ht
    have tested := test.isOneValue_pieces legible keyed single t insideTest
      (fun manyTest => absurd manyTest (by simpa using few)) testPlain written
    have yielded := value.isOneValue_pieces legible keyed single v insideValue many valuePlain hv
    have later := isOneValue_branchesPieces legible keyed single rest r below restPlain hr
    simp only [List.append_assoc]
    refine isOneValue_cons rfl (by decide) (by decide) ?_
    refine (test.balanced_pieces legible _ t insideTest written).isOneValue_append tested ?_
    refine isOneValue_cons rfl (by decide) (by decide) ?_
    exact (value.balanced_pieces legible _ v insideValue hv).isOneValue_append yielded later

end

end Writing

variable {schema : Schema} {native : Bool}

/-- No entity, unless it is a domain object that the query declares to be a truth value. -/
def Expr.IsSingle (e : Expr) : Prop :=
  e.isEntity = true → e.kind = .entityConstant ∧ e.type.isBoolean = true

/-- Operators are applied to single values. -/
def Node.IsComputed : Node → Prop
  | .expression (.binary _ left right _) => left.IsSingle ∧ right.IsSingle
  | _ => True

/-- Operators are applied to single values throughout. -/
def Node.Computed (n : Node) : Prop := n.Everywhere IsComputed

namespace Expr

theorem isSingle_of_fits {e : Expr} (h : e.Fits native .singleValue) : e.IsSingle := by
  intro entity
  rw [h.1] at entity
  cases entity

theorem IsSingle.compound_of_isMany {e : Expr} (h : e.IsSingle) (unnamed : e.kind ≠ .named)
    (many : e.kind.isMany = true) : e.kind = .compound := by
  cases e with
  | entity | entityReference => cases (h rfl).1
  | named => exact absurd rfl unnamed
  | compound => rfl
  | _ => cases many

theorem computed_of_children_eq_nil {e : Expr} (unary : e.kind ≠ .binary)
    (h : (Node.expression e).children = []) : (Node.expression e).Computed := by
  refine .intro ?_ (by simp [h])
  cases e with
  | binary => exact absurd rfl unary
  | _ => trivial

theorem computed_of_leaf {e : Expr} (leaf : e.kind.isLeaf = true) :
    (Node.expression e).Computed := by
  cases e with
  | column | literal | customText | entity | entityReference | entityConstant =>
    exact computed_of_children_eq_nil nofun rfl
  | _ => cases leaf

theorem computed_composite {e : Expr} (composite : e.kind.isComposite = true)
    (slots : ∀ slot ∈ e.slots, (Node.expression slot.2).Computed) :
    (Node.expression e).Computed := by
  refine .ofSlots ?_ ?_ slots
  · rintro s rfl
    cases composite
  · cases e with
    | binary => cases composite
    | _ => trivial

theorem computed_int (n : Int) : (Node.expression (int n)).Computed :=
  computed_of_children_eq_nil nofun rfl

theorem computed_binary {op : BinaryOp} {left right : Expr} {type : ValueType}
    (hl : (Node.expression left).Computed) (hr : (Node.expression right).Computed)
    (leftSingle : left.IsSingle) (rightSingle : right.IsSingle) :
    (Node.expression (binary op left right type)).Computed := by
  refine .ofSlots (by simp) ⟨leftSingle, rightSingle⟩ ?_
  exact List.forall_mem_cons.mpr ⟨hl, List.forall_mem_singleton.mpr hr⟩

theorem RowOf.computed {tableAlias : String} {e : Expr} (h : e.RowOf tableAlias) :
    (Node.expression e).Computed := by
  have part {e : Expr} (h : e.PartOf tableAlias) : (Node.expression e).Computed := by
    refine computed_of_children_eq_nil ?_ h.children
    cases h <;> exact nofun
  rcases h with h | ⟨members, rfl, h⟩
  · exact part h
  · refine .ofSlots (by simp) trivial fun slot hs => ?_
    obtain ⟨n, hn, rfl⟩ := List.mem_map.mp hs
    exact part (h n hn)

theorem computed_of_adapted {position : Position} {e e' : Expr}
    (h : (Node.expression e).Computed) (fits : adapted native position e = .ok e') :
    (Node.expression e').Computed := by
  have int_single (n : Int) : (int n).IsSingle := nofun
  rcases adapted_cases fits with rfl | ⟨-, rfl⟩ | ⟨-, boolean, rfl⟩ | ⟨value, -, rfl⟩
  · exact h
  · have slots : e.asValue.slots =
      [(.predicate, e), (.singleValue, int 1), (.singleValue, int 0)] := rfl
    refine .ofSlots (by simp [asValue]) trivial ?_
    rw [slots, List.forall_mem_cons, List.forall_mem_cons, List.forall_mem_singleton]
    exact ⟨h, computed_int 1, computed_int 0⟩
  · refine computed_binary h (computed_int 1) (fun entity => ?_) (int_single 1)
    cases e with
    | entityConstant => exact ⟨rfl, boolean⟩
    | entity | entityReference => cases boolean
    | _ => cases entity
  · exact computed_binary (computed_int 1) (computed_int 1) (int_single 1) (int_single 1)

theorem computed_of_identity {e e' : Expr} (ready : (Node.expression e).IsReady)
    (h : (Node.expression e).Computed) (hi : e.identity = .ok e') :
    (Node.expression e').Computed := by
  rcases identity_eq_ok ready hi with ⟨_, -, rfl⟩ | ⟨_, _, _, -, rfl⟩ | ⟨_, _, _, _, -, rfl⟩ |
    ⟨rfl, -⟩
  · exact computed_of_leaf rfl
  · exact computed_of_leaf rfl
  · exact computed_of_children_eq_nil nofun rfl
  · exact h

theorem computed_of_identities {op : BinaryOp} {left right left' right' : Expr}
    (leftReady : (Node.expression left).IsReady) (rightReady : (Node.expression right).IsReady)
    (hl : (Node.expression left).Computed) (hr : (Node.expression right).Computed)
    (hi : identities op left right = .ok (left', right')) :
    (Node.expression left').Computed ∧ (Node.expression right').Computed := by
  rcases identities_eq_ok hi with ⟨-, hlk, hrk⟩ | ⟨-, rfl, rfl⟩
  · exact ⟨computed_of_identity leftReady hl hlk, computed_of_identity rightReady hr hrk⟩
  · exact ⟨hl, hr⟩

end Expr

/-- Whatever an operator is applied to before, after resolution these are single values. -/
def Computes : Judgement → Prop
  | .expression rows _ e tables _ e' _ _ | .fitted rows _ e tables _ e' _ _ =>
    PlainRows rows → (Node.expression e).Ready → Linked tables → (Node.expression e').Computed
  | .slots rows slots tables _ slots' _ _ =>
    PlainRows rows → (∀ slot ∈ slots, (Node.expression slot.2).Ready) → Linked tables →
      ∀ slot ∈ slots', (Node.expression slot.2).Computed
  | .source rows source _ source' _ =>
    PlainRows rows → (∀ s, source.statement? = some s → (Node.statement s).Ready) →
      ∀ s, source'.statement? = some s → (Node.statement s).Computed
  | .tables rows tables _ tables' _ _ =>
    PlainRows rows → (∀ s ∈ sourceStatements tables, (Node.statement s).Ready) →
      ∀ s ∈ sourceStatements tables', (Node.statement s).Computed
  | .statement rows s _ s' _ =>
    PlainRows rows → (Node.statement s).Ready → (Node.statement s').Computed

theorem Resolved.computes {j : Judgement} (h : Resolved schema native j) : Computes j := by
  induction h with
  | leaf leaf =>
    intro _ _ _
    exact Expr.computed_of_leaf leaf
  | constant mapped =>
    intro _ _ _
    rcases Schema.constant_eq_ok mapped with ⟨_, _, _, -, rfl⟩ | ⟨-, rfl⟩
    · exact Expr.computed_of_children_eq_nil nofun rfl
    · exact Expr.computed_of_children_eq_nil nofun rfl
  | tableReference found =>
    intro plain _ _
    obtain ⟨tableAlias, row⟩ := plain.of_lookup found
    exact row.computed
  | member owner mapped again ihOwner ihAgain =>
    intro plain ready linked
    obtain ⟨⟨settled, -⟩, linked₁, -⟩ := owner.settles plain (ready.slot List.mem_cons_self) linked
    exact ihAgain plain (Expr.ready_of_memberOf settled mapped) linked₁
  | navigation followed =>
    intro _ _ linked
    obtain ⟨-, target, exposed, -⟩ := Entity.navigate_eq_ok linked followed
    obtain ⟨tableAlias, -, row⟩ := Source.row_eq_ok exposed
    exact row.computed
  | binary first second compared leftFits rightFits ihFirst ihSecond =>
    intro plain ready linked
    have leftReady := ready.slot List.mem_cons_self
    have rightReady := ready.slot (List.mem_cons_of_mem _ List.mem_cons_self)
    obtain ⟨⟨leftSettled, -⟩, linked₁, -⟩ := first.settles plain leftReady linked
    obtain ⟨⟨rightSettled, -⟩, -, -⟩ := second.settles plain rightReady linked₁
    have left := ihFirst plain leftReady linked
    have right := ihSecond plain rightReady linked₁
    obtain ⟨left, right⟩ := Expr.computed_of_identities leftSettled.ready.here
      rightSettled.ready.here left right compared
    exact Expr.computed_binary (Expr.computed_of_adapted left leftFits)
      (Expr.computed_of_adapted right rightFits)
      (Expr.isSingle_of_fits (Expr.fits_of_adapted leftFits))
      (Expr.isSingle_of_fits (Expr.fits_of_adapted rightFits))
  | composite composite kind type isPredicate wording labels slots ih =>
    intro plain ready linked
    rw [← kind] at composite
    exact Expr.computed_composite composite (ih plain (fun _ hs => ready.slot hs) linked)
  | named inner ih =>
    intro _ ready
    exact absurd rfl ready.here.1
  | subStatement inner ih =>
    intro plain ready _
    exact .intro trivial
      (List.forall_mem_singleton.mpr (ih plain (ready.child List.mem_cons_self)))
  | fitted resolved fits ih =>
    intro plain ready linked
    exact Expr.computed_of_adapted (ih plain ready linked) fits
  | noSlot => exact fun _ _ _ => List.forall_mem_nil _
  | slot first rest ihFirst ihRest =>
    intro plain ready linked
    obtain ⟨firstReady, restReady⟩ := List.forall_mem_cons.mp ready
    obtain ⟨-, linked₁, -⟩ := first.settles plain firstReady linked
    exact List.forall_mem_cons.mpr
      ⟨ihFirst plain firstReady linked, ihRest plain restReady linked₁⟩
  | unresolvedSource mapped =>
    intro _ _ s hs
    obtain ⟨mapping, -, rfl, -⟩ := Mapping.source_eq_ok mapped
    cases hs
  | tableSource =>
    intro _ _ s hs
    cases hs
  | statementSource inner ih =>
    intro plain ready s hs
    rw [← Option.some.inj hs]
    exact ih plain (ready _ rfl)
  | noTable => exact fun _ _ => List.forall_mem_nil _
  | table first exposed rest ihFirst ihRest =>
    intro plain ready s hs
    obtain ⟨tableAlias, -, row⟩ := Source.row_eq_ok exposed
    rcases mem_sourceStatements_cons.mp hs with hs | hs
    · exact ihFirst plain (fun t ht => ready t (mem_sourceStatements_cons.mpr (.inl ht))) s hs
    · exact ihRest (List.forall_mem_cons.mpr ⟨⟨_, row⟩, plain⟩)
        (fun t ht => ready t (mem_sourceStatements_cons.mpr (.inr ht))) s hs
  | statement sources joins slots projection shape isDistinct condition ihSources ihSlots =>
    intro plain ready
    have nested := ihSources plain fun s hs =>
      ready.child (List.mem_append_right _ (List.mem_map_of_mem hs))
    obtain ⟨⟨rfl, rfl⟩, plain₁, linked₁, slotsReady⟩ := sources.slots_ready joins plain ready
    have expressions := ihSlots plain₁ slotsReady linked₁
    obtain ⟨fitted, -, bare⟩ := slots.settles plain₁ slotsReady linked₁
    refine .intro trivial ?_
    rw [Statement.children_eq projection (fitted _ List.mem_cons_self).1 bare]
    exact List.forall_mem_append.mpr
      ⟨List.forall_mem_map.mpr expressions, List.forall_mem_map.mpr nested⟩

/-- A statement that is resolved applies operators to single values, at any depth. -/
theorem Statement.computed_of_resolve {s s' : Statement} {f f' : Fresh}
    (ready : (Node.statement s).Ready)
    (h : s.resolve (Mapping.ofSchema schema) native f = .ok (s', f')) :
    (Node.statement s').Computed :=
  (Statement.resolved_of_resolve h).computes (List.forall_mem_nil _) ready

/-- But for the operands of operators, what has to be one value is resolved as such. -/
theorem Expr.single_slot {e value : Expr} (operator : e.kind ≠ .binary) (h : value ∈ e.singles) :
    (Position.singleValue, value) ∈ e.slots := by
  cases e with
  | binary => exact absurd rfl operator
  | like expression pattern => simpa [singles, slots] using h
  | likeEscape e | convert target e type => simpa [singles, slots] using h
  | case branches otherwise type =>
    rcases List.mem_append.mp h with h | h
    · obtain ⟨branch, hb, rfl⟩ := List.mem_map.mp h
      exact List.mem_append_left _ (List.mem_flatMap.mpr ⟨branch, hb, by simp⟩)
    · exact List.mem_append_right _ (List.mem_map_of_mem h)
  | function name args type isPredicate => exact List.mem_map_of_mem h
  | aggregation aggregate e type =>
    simp only [singles] at h
    split at h
    · cases h
    · rename_i notCount
      simp [slots, notCount, List.mem_singleton.mp h]
  | rowNumber orderings =>
    obtain ⟨ordering, ho, rfl⟩ := List.mem_map.mp h
    exact List.mem_map_of_mem (f := fun o : Ordering => (_, o.expression)) ho
  | _ => cases h

theorem Statement.single_clause {s : Statement} {value : Expr}
    (h : value ∈ (Node.statement s).singles) : (Position.singleValue, value) ∈ s.clauses := by
  simp only [Node.singles, List.mem_append, List.mem_map] at h
  simp only [clauses, List.mem_append, List.mem_map, Prod.mk.injEq]
  grind

namespace Node

variable {offer : Offer} {n root : Node}

theorem Inside.single {e : Expr} (h : Inside root n) (he : e ∈ n.singles) :
    Inside root (.expression e) := by
  cases n with
  | statement s => exact h.clause (Statement.single_clause he)
  | expression parent =>
    refine h.operand ?_
    cases parent with
    | binary op left right type =>
      simpa [singles, Expr.singles, Expr.operands, Expr.slots] using he
    | entityConstant | named | call => cases he
    | _ => exact List.mem_map_of_mem (Expr.single_slot (by simp [Expr.kind]) he)

theorem Mapped.keyed {e : Expr} (h : (Node.expression e).Mapped schema native offer) :
    e.keyed = true := by
  have keyed := h.settled.here.2.1
  cases e with
  | named => rfl
  | _ => exact keyed

/-- Where one value has to be there is no name, and no entity. -/
theorem Mapped.single (h : n.Mapped schema native offer) (computed : n.unnamed.Computed) :
    ∀ e ∈ n.singles, e.kind ≠ .named ∧ e.IsSingle := by
  intro value hv
  cases n with
  | statement s =>
    have settled := h.settled
    have slot : (Position.singleValue, value) ∈ s.slots :=
      List.mem_cons_of_mem _ (Statement.single_clause hv)
    have child := settled.child (List.mem_append_left _ (List.mem_map_of_mem slot))
    exact ⟨child.ready.here.1, Expr.isSingle_of_fits (settled.here.2.1 _ slot)⟩
  | expression e =>
    have unnamed : e.kind ≠ .named := by
      rintro named
      cases e with
      | named n => cases hv
      | _ => cases named
    have settled := h.settled
    rw [unnamed_of_kind unnamed] at settled computed
    by_cases operator : e.kind = .binary
    · cases e with
      | binary op left right type =>
        have slot : (Position.value, value) ∈ (Expr.binary op left right type).slots := by
          simpa [singles, Expr.singles, Expr.slots] using hv
        refine ⟨(settled.slot slot).ready.here.1, ?_⟩
        obtain ⟨leftSingle, rightSingle⟩ := computed.here
        rcases List.mem_cons.mp hv with rfl | hv
        · exact leftSingle
        · rwa [List.mem_singleton.mp hv]
      | _ => cases operator
    · have slot := Expr.single_slot operator hv
      exact ⟨(settled.slot slot).ready.here.1, Expr.isSingle_of_fits (settled.here.2.2 _ slot)⟩

end Node

end Comprehension.Sql

namespace Comprehension.Query.Model

open Command (IsOneValue)
open Method.Registry (defaults)
open Sql (Node Statement)

variable {schema : Schema} {options : Options} {m : Model} {s : Statement} {f₀ f : Fresh}

theorem single_of_statement
    (h : m.statement defaults (Mapping.ofSchema schema) options f₀ = .ok (s, f)) {n : Node}
    (inside : Node.Inside (.statement s) n) : ∀ e ∈ n.singles, e.kind ≠ .named ∧ e.IsSingle := by
  have mapped := mapped_of_statement h
  obtain ⟨t, f₁, ground, resolved⟩ := prepares_of_statement h
  have ready := (ground.prepared _ List.mem_cons_self).ready_of_prepared
  have computed := Statement.computed_of_resolve ready resolved
  obtain ⟨offer, here⟩ := mapped.inside inside
  exact here.single
    (mapped.everywhere_of_inside (fun _ _ => trivial) (fun _ => trivial) computed inside)

/-- What a compiled statement holds is written as one value where no entity and no record stands for
several. -/
theorem isOneValue_of_statement
    (h : m.statement defaults (Mapping.ofSchema schema) options f₀ = .ok (s, f)) {e : Sql.Expr}
    (inside : Node.Inside (.statement s) (.expression e))
    (many : e.kind.isMany = true → e.kind = .compound) (plain : e.isPlain = true)
    {pieces : List Command.Piece}
    (written : e.pieces options.nativeBoolean .projected = .ok pieces) : IsOneValue pieces := by
  have mapped := mapped_of_statement h
  have legible (n : Node) (inside : Node.Inside (.statement s) n) : n.Legible fun _ _ => True := by
    obtain ⟨offer, here⟩ := mapped.inside inside
    exact here.legible fun _ _ _ => trivial
  have keyed (e : Sql.Expr) (inside : Node.Inside (.statement s) (.expression e)) :
      e.keyed = true := by
    obtain ⟨offer, here⟩ := mapped.inside inside
    exact here.keyed
  have few (n : Node) (inside : Node.Inside (.statement s) n) (e : Sql.Expr) (he : e ∈ n.singles) :
      e.kind.isMany = true → e.kind = .compound :=
    (single_of_statement h inside e he).2.compound_of_isMany (single_of_statement h inside e he).1
  exact e.isOneValue_pieces legible keyed few pieces inside many plain written

/-- At any depth of a compiled statement, what stands where one value has to be is under no name and
no entity; a domain object stands there only if the query declares it to be a truth value. Unless a
record is there, one value is written. -/
theorem statement_singles
    (h : m.statement defaults (Mapping.ofSchema schema) options f₀ = .ok (s, f)) :
    ∀ n, Node.Inside (.statement s) n → ∀ e ∈ n.singles,
      e.kind ≠ .named ∧ e.IsSingle ∧
      (e.isPlain = true → ∀ pieces, e.pieces options.nativeBoolean .projected = .ok pieces →
        IsOneValue pieces) := by
  intro n inside e he
  obtain ⟨unnamed, single⟩ := single_of_statement h inside e he
  exact ⟨unnamed, single, fun plain pieces written =>
    isOneValue_of_statement h (inside.single he) (single.compound_of_isMany unnamed) plain written⟩

/-- The cooks, those in whose names a text is found last. -/
def cooksBySearch : Model :=
  let name : Expr := .member (.item "c" (.entity "Cook")) "FirstName" .string
  { main := .table "c" "Cook"
    clauses := [.orderBy [⟨.call (some name) "String" "Contains" [.string]
      [.constant (.string "b") .string] .boolean, .asc⟩]]
    yield := .select name
    operators := [] }

theorem cooksBySearch_singles :
    ∃ s f key pieces,
      cooksBySearch.statement defaults (Mapping.ofSchema .restaurant) {} {} = .ok (s, f) ∧
      key ∈ (Node.statement s).singles ∧ key.kind = .case ∧
      key.pieces false .projected = .ok pieces ∧
      key.kind ≠ .named ∧ key.IsSingle ∧ IsOneValue pieces := by
  have ordered : (cooksBySearch.statement defaults (Mapping.ofSchema .restaurant) {}
      {}).toOption.any (fun result => (Node.statement result.1).singles.any fun key =>
        (decide (key.kind = .case) && key.isPlain) &&
        (key.pieces false .projected).toOption.any fun _ => true) = true := by
    decide +kernel
  obtain ⟨⟨s, f⟩, compiled, ordered⟩ := Outcome.exists_of_any ordered
  obtain ⟨key, mem, ordered⟩ := List.any_eq_true.mp ordered
  rw [Bool.and_eq_true, Bool.and_eq_true, decide_eq_true_iff] at ordered
  obtain ⟨⟨kind, plain⟩, written⟩ := ordered
  obtain ⟨pieces, written, -⟩ := Outcome.exists_of_any written
  obtain ⟨unnamed, single, one⟩ := statement_singles compiled (.statement s) .root key mem
  exact ⟨s, f, key, pieces, compiled, mem, kind, written, unnamed, single, one plain pieces written⟩

/-- The cooks in the order of records of their names and keys. -/
def cooksByRecord : Model :=
  let cook : Expr := .item "c" (.entity "Cook")
  let name : Expr := .member cook "FirstName" .string
  { main := .table "c" "Cook"
    clauses := [.orderBy [⟨.record [("A", name), ("B", .member cook "ID" .int32)], .asc⟩]]
    yield := .select name
    operators := [] }

/-- A record is taken for an order, and written as several values with names. -/
theorem cooksByRecord_several :
    ∃ s f key pieces c,
      cooksByRecord.statement defaults (Mapping.ofSchema .restaurant) {} {} = .ok (s, f) ∧
      key ∈ (Node.statement s).singles ∧ key.kind = .compound ∧
      key.pieces false .projected = .ok pieces ∧ ¬ IsOneValue pieces ∧
      cooksByRecord.compile defaults (Mapping.ofSchema .restaurant) {} = .ok c ∧
      c.text = "SELECT [t0].[FirstName] FROM [CookTable] AS [t0] " ++
        "ORDER BY [t0].[FirstName] AS [A], [t0].[ID] AS [B] ASC" := by
  have several : (cooksByRecord.statement defaults (Mapping.ofSchema .restaurant) {}
      {}).toOption.any (fun result => (Node.statement result.1).singles.any fun key =>
        key.kind = .compound &&
        (key.pieces false .projected).toOption.any fun pieces => ¬ IsOneValue pieces) = true := by
    decide +kernel
  have compiles : (cooksByRecord.compile defaults (Mapping.ofSchema .restaurant) {}).toOption.any
      (fun c => c.text = "SELECT [t0].[FirstName] FROM [CookTable] AS [t0] " ++
        "ORDER BY [t0].[FirstName] AS [A], [t0].[ID] AS [B] ASC") = true := by
    decide +kernel
  obtain ⟨⟨s, f⟩, compiled, several⟩ := Outcome.exists_of_any several
  obtain ⟨key, mem, several⟩ := List.any_eq_true.mp several
  rw [Bool.and_eq_true, decide_eq_true_iff] at several
  obtain ⟨record, several⟩ := several
  obtain ⟨pieces, written, several⟩ := Outcome.exists_of_any several
  obtain ⟨c, compiles, text⟩ := Outcome.exists_of_any compiles
  exact ⟨s, f, key, pieces, c, compiled, mem, record, written, of_decide_eq_true several,
    compiles, of_decide_eq_true text⟩

end Comprehension.Query.Model
