import Comprehension.Command.Render
import Comprehension.Proofs.Outcome

/-!
Which values a statement hands to its command. `Statement.emitted` lists them in the order in which
the clauses are written, and says nothing of text; the pieces of a statement carry exactly these
values.
-/
namespace Comprehension.Command

/-- The value of a piece that is a parameter. -/
def Piece.value? : Piece → Option Value
  | .parameter value => some value
  | _ => none

/-- The values of the parameters among pieces, in order. -/
def values (pieces : List Piece) : List Value := pieces.filterMap Piece.value?

@[simp] theorem values_nil : values [] = [] := rfl

@[simp] theorem values_cons (piece : Piece) (rest : List Piece) :
    values (piece :: rest) = piece.value?.toList ++ values rest := by
  cases piece <;> rfl

@[simp] theorem values_append (left right : List Piece) :
    values (left ++ right) = values left ++ values right := by
  simp [values]

@[simp] theorem value?_text (text : String) : (Piece.text text).value? = none := rfl

@[simp] theorem value?_identifier (name : String) : (Piece.identifier name).value? = none := rfl

@[simp] theorem value?_literal (text : String) : (Piece.literal text).value? = none := rfl

@[simp] theorem value?_concat : Piece.concat.value? = none := rfl

@[simp] theorem value?_parameter (value : Value) : (Piece.parameter value).value? = some value := rfl

@[simp] theorem value?_literalPiece (l : Sql.Literal) : (literalPiece l).value? = none := by
  cases l <;> rfl

@[simp] theorem value?_operatorPiece (op : Sql.BinaryOp) : (operatorPiece op).value? = none := by
  cases op <;> rfl

theorem commas_cons_cons (first second : List Piece) (rest : List (List Piece)) :
    commas (first :: second :: rest) = first ++ [Piece.text ", "] ++ commas (second :: rest) := by
  simp [commas, List.intercalate]

@[simp] theorem values_commas (items : List (List Piece)) :
    values (commas items) = items.flatMap values := by
  induction items with
  | nil => rfl
  | cons first rest ih =>
    cases rest with
    | nil => simp [commas, List.intercalate]
    | cons second rest => simp [commas_cons_cons, ih]

@[simp] theorem values_columnPieces (owner name : String) : values (columnPieces owner name) = [] := by
  unfold columnPieces
  split <;> simp

@[simp] theorem values_valuePieces (value : Value) :
    values (valuePieces value) = if value.isNull then [] else [value] := by
  unfold valuePieces
  split <;> simp

@[simp] theorem values_entityPieces (tableAlias : String) (e : Sql.Entity)
    (readName writtenName : Option String) :
    values (entityPieces tableAlias e readName writtenName) = [] := by
  have columnValues (c : Sql.Column) :
      values (entityColumn tableAlias readName writtenName c) = [] := by
    unfold entityColumn
    dsimp only
    split
    · simp
    · split <;> simp
  simp [entityPieces, columnValues]

@[simp] theorem values_groupedEntity (e : Sql.Entity) : values (groupedEntity e) = [] := by
  simp [groupedEntity]

@[simp] theorem values_escapePieces (value : List Piece) :
    values (escapePieces value) = values value := by
  simp [escapePieces, Method.Pattern.wildcards]

@[simp] theorem values_clause (keyword : String) (pieces : Option (List Piece)) :
    values (clause keyword pieces) = (pieces.map values).getD [] := by
  cases pieces <;> simp [clause]

@[simp] theorem values_orderingPieces (e : Sql.Expr) (direction : Query.Direction)
    (rendered : List Piece) : values (orderingPieces e direction rendered) = values rendered := by
  unfold orderingPieces
  dsimp only
  split <;> simp

theorem values_attached (tables : List (Sql.JoinKind × Sql.Source × List Piece)) :
    ((attached tables).map values).getD [] = tables.flatMap fun table => values table.2.2 := by
  cases tables with
  | nil => rfl
  | cons first rest =>
    have tail : values (rest.flatMap fun table =>
        Piece.text (attachment table.2.1 table.1) :: table.2.2) =
        rest.flatMap fun table => values table.2.2 := by
      induction rest with
      | nil => rfl
      | cons table rest ih => simp [ih]
    simp [attached, tail]

end Comprehension.Command

namespace Comprehension.Sql

open Command
open Outcome (bind_eq_ok pure_eq_ok)

mutual

/-- The values that an expression hands to the command, from left to right. A count does not look
at its operand. -/
def Expr.emitted : Expr → List Value
  | .constant value _ => if value.isNull then [] else [value]
  | .entityConstant _ _ e | .likeEscape e | .not e | .convert _ e _ | .named ⟨_, e⟩ => e.emitted
  | .binary op left right _ =>
    if op.isComparison && (left.isNullConstant || right.isNullConstant) then
      match op with
      | .lessThan | .greaterThan => []
      | _ => if right.isNullConstant then left.emitted else right.emitted
    else left.emitted ++ right.emitted
  | .like left right | .logical _ left right => left.emitted ++ right.emitted
  | .case branches otherwise _ => branchesEmitted branches ++ optionEmitted otherwise
  | .function _ args _ _ => argsEmitted args
  | .aggregation function e _ => if function = .count then [] else e.emitted
  | .rowNumber orderings => orderingsEmitted orderings
  | .compound members => membersEmitted members
  | .subStatement statement => statement.emitted true
  | .column _ | .literal _ | .customText .. | .entity _ | .entityReference .. | .navigation ..
  | .tableReference .. | .member .. | .call _ => []

def optionEmitted : Option Expr → List Value
  | none => []
  | some e => e.emitted

def argsEmitted : List Expr → List Value
  | [] => []
  | e :: rest => e.emitted ++ argsEmitted rest

def branchesEmitted : List (Expr × Expr) → List Value
  | [] => []
  | (test, value) :: rest => test.emitted ++ value.emitted ++ branchesEmitted rest

def orderingsEmitted : List Ordering → List Value
  | [] => []
  | ⟨e, _⟩ :: rest => e.emitted ++ orderingsEmitted rest

def membersEmitted : List Named → List Value
  | [] => []
  | ⟨_, e⟩ :: rest => e.emitted ++ membersEmitted rest

def Source.emitted : Source → List Value
  | .statement _ statement => statement.emitted true
  | .unresolved _ | .table .. => []

/-- Each join is followed by the joins that hang off it. -/
def joinsEmitted : List Join → List Value
  | [] => []
  | ⟨_, _, .unresolved _ _, joins⟩ :: rest => joinsEmitted joins ++ joinsEmitted rest
  | ⟨_, _, .resolved source leftKey rightKey, joins⟩ :: rest =>
    source.emitted ++ leftKey.emitted ++ rightKey.emitted ++ joinsEmitted joins ++ joinsEmitted rest

def tablesEmitted : List Table → List Value
  | [] => []
  | ⟨_, source, _, joins⟩ :: rest => source.emitted ++ joinsEmitted joins ++ tablesEmitted rest

/-- `TOP`, the projection, the sources with their joins, `WHERE`, `GROUP BY`, `ORDER BY`. Inside
another statement an order that limits nothing is left out. -/
def Statement.emitted (nested : Bool) : Statement → List Value
  | ⟨projection, tables, condition, grouping, orderings, top, _, _, _, _⟩ =>
    optionEmitted top ++ projection.emitted ++ tablesEmitted tables ++ optionEmitted condition ++
      optionEmitted grouping ++
      if nested && !top.isSome then [] else orderingsEmitted orderings

end

/-- The clauses of a statement put together. -/
def statementPieces (isDistinct : Bool) (top : Option (List Piece)) (projection : List Piece)
    (tables : List (JoinKind × Source × List Piece)) (condition grouping : Option (List Piece))
    (orderings : List (List Piece)) : List Piece :=
  [.text "SELECT "] ++ (if isDistinct then [.text "DISTINCT "] else []) ++
    (match top with
      | none => []
      | some top => [.text "TOP ("] ++ top ++ [.text ") "]) ++
    projection ++ clause " FROM " (attached tables) ++ clause " WHERE " condition ++
    clause " GROUP BY " grouping ++
    (if orderings.isEmpty then [] else [.text " ORDER BY "] ++ commas orderings)

theorem values_statementPieces (isDistinct : Bool) (top : Option (List Piece))
    (projection : List Piece) (tables : List (JoinKind × Source × List Piece))
    (condition grouping : Option (List Piece)) (orderings : List (List Piece)) :
    values (statementPieces isDistinct top projection tables condition grouping orderings) =
      (top.map values).getD [] ++ values projection ++
        (tables.flatMap fun table => values table.2.2) ++ (condition.map values).getD [] ++
        (grouping.map values).getD [] ++ orderings.flatMap values := by
  have distinct : values (if isDistinct then [Piece.text "DISTINCT "] else []) = [] := by
    split <;> simp
  have ordered :
      values (if orderings.isEmpty then [] else [Piece.text " ORDER BY "] ++ commas orderings) =
        orderings.flatMap values := by
    cases orderings <;> simp
  simp only [statementPieces, values_append, distinct, ordered, values_clause, values_attached]
  cases top <;> simp

/-- A nullable column is written up to three times, but hands over nothing. -/
theorem values_of_isNullableColumn {native : Bool} {listing : Listing} {e : Expr}
    {pieces : List Piece} (hc : isNullableColumn e = true)
    (h : e.pieces native listing = .ok pieces) : values pieces = [] := by
  cases e with
  | column c =>
    simp only [Expr.pieces, Except.ok.injEq] at h
    simp [← h]
  | _ => simp [isNullableColumn] at hc

/-- What a named projection hands over does not depend on its name. -/
theorem values_namedPieces {native : Bool} {name : Option String} {e : Expr}
    {pieces : List Piece} (he : ∀ ps, e.pieces native .projected = .ok ps → values ps = e.emitted)
    (h : namedPieces name e (e.pieces native .projected) = .ok pieces) :
    values pieces = e.emitted := by
  unfold namedPieces at h
  split at h
  · simp only [Except.ok.injEq] at h
    simp [← h, Expr.emitted]
  · simp only [Except.ok.injEq] at h
    simp [← h, Expr.emitted]
  · exact he pieces h
  · simp only [bind_eq_ok, pure_eq_ok] at h
    obtain ⟨rendered, hr, rfl⟩ := h
    simp [he rendered hr]

/-- A condition is written as the expression it is. -/
theorem pieces_of_predicatePieces {native : Bool} {e : Expr} {rendered : Rendered}
    {pieces : List Piece} (h : predicatePieces native e rendered = .ok pieces) :
    rendered = .ok pieces := by
  unfold predicatePieces at h
  split at h
  · exact h
  · cases h

theorem values_binaryPieces {native : Bool} {op : BinaryOp} {left right : Expr} {type : ValueType}
    {pieces : List Piece}
    (hl : ∀ ps, left.pieces native .projected = .ok ps → values ps = left.emitted)
    (hr : ∀ ps, right.pieces native .projected = .ok ps → values ps = right.emitted)
    (h : binaryPieces op left right (left.pieces native .projected)
      (right.pieces native .projected) = .ok pieces) :
    values pieces = (Expr.binary op left right type).emitted := by
  unfold binaryPieces at h
  unfold Expr.emitted
  split at h
  · rename_i hn
    rw [if_pos hn]
    have subject : ∀ ps, (if right.isNullConstant then left.pieces native .projected
        else right.pieces native .projected) = .ok ps →
        values ps = if right.isNullConstant then left.emitted else right.emitted := by
      intro ps hps
      split at hps <;> rename_i hnull
      · simpa [hnull] using hl ps hps
      · simpa [hnull] using hr ps hps
    cases op <;> simp only [nullRule, bind_eq_ok, pure_eq_ok, Except.ok.injEq] at h
    case lessThan | greaterThan => simp [← h]
    all_goals first
      | (simp only [BinaryOp.isComparison] at hn; cases hn)
      | (obtain ⟨ps, hps, rfl⟩ := h
         simpa using subject ps hps)
  · rename_i hn
    rw [if_neg hn]
    simp only [bind_eq_ok, pure_eq_ok] at h
    obtain ⟨l, hl', r, hr', rfl⟩ := h
    split
    · -- Both operands are columns here, and the nulls spelled out repeat columns only.
      rename_i hc
      simp only [Bool.and_eq_true] at hc
      have hlv := values_of_isNullableColumn hc.1.2 hl'
      have hrv := values_of_isNullableColumn hc.2 hr'
      rw [← hl l hl', ← hr r hr', hlv, hrv]
      split <;> simp [hlv, hrv]
    · simp [hl l hl', hr r hr']

mutual

theorem Expr.values_pieces (native : Bool) : ∀ (e : Expr) (listing : Listing) (pieces : List Piece),
    e.pieces native listing = .ok pieces → values pieces = e.emitted
  | .column c, listing, pieces, h => by
    simp only [Expr.pieces, Except.ok.injEq] at h
    simp [← h, Expr.emitted]
  | .constant value type, listing, pieces, h => by
    simp only [Expr.pieces, Except.ok.injEq] at h
    simp [← h, Expr.emitted]
  | .literal l, listing, pieces, h => by
    simp only [Expr.pieces, Except.ok.injEq] at h
    simp [← h, Expr.emitted]
  | .customText text type, listing, pieces, h => by
    simp only [Expr.pieces, Except.ok.injEq] at h
    simp [← h, Expr.emitted]
  | .entity e, listing, pieces, h => by
    simp only [Expr.pieces, Except.ok.injEq] at h
    subst h
    split <;> simp [Expr.emitted]
  | .entityReference tableAlias name e, listing, pieces, h => by
    simp only [Expr.pieces, Except.ok.injEq] at h
    simp [← h, Expr.emitted]
  | .entityConstant type value primaryKey, listing, pieces, h => by
    simp only [Expr.pieces] at h
    simpa [Expr.emitted] using Expr.values_pieces native primaryKey .projected pieces h
  | .binary op left right type, listing, pieces, h => by
    simp only [Expr.pieces] at h
    exact values_binaryPieces (Expr.values_pieces native left .projected)
      (Expr.values_pieces native right .projected) h
  | .like expression pattern, listing, pieces, h => by
    simp only [Expr.pieces, bind_eq_ok, pure_eq_ok] at h
    obtain ⟨v, hv, p, hp, rfl⟩ := h
    simp [Expr.emitted, Expr.values_pieces native expression _ v hv,
      Expr.values_pieces native pattern _ p hp]
  | .likeEscape value, listing, pieces, h => by
    simp only [Expr.pieces, bind_eq_ok, pure_eq_ok] at h
    obtain ⟨v, hv, rfl⟩ := h
    simp [Expr.emitted, Expr.values_pieces native value _ v hv]
  | .logical op left right, listing, pieces, h => by
    simp only [Expr.pieces, bind_eq_ok, pure_eq_ok] at h
    obtain ⟨l, hl, r, hr, rfl⟩ := h
    simp [Expr.emitted, Expr.values_pieces native left _ l (pieces_of_predicatePieces hl),
      Expr.values_pieces native right _ r (pieces_of_predicatePieces hr)]
  | .not operand, listing, pieces, h => by
    simp only [Expr.pieces, bind_eq_ok, pure_eq_ok] at h
    obtain ⟨o, ho, rfl⟩ := h
    simp [Expr.emitted, Expr.values_pieces native operand _ o (pieces_of_predicatePieces ho)]
  | .case branches otherwise type, listing, pieces, h => by
    simp only [Expr.pieces, bind_eq_ok, pure_eq_ok] at h
    obtain ⟨b, hb, o, ho, rfl⟩ := h
    simp [Expr.emitted, values_branchesPieces native branches b hb,
      values_optionPieces native otherwise _ o ho]
  | .function name args type isPredicate, listing, pieces, h => by
    simp only [Expr.pieces, bind_eq_ok, pure_eq_ok] at h
    obtain ⟨a, ha, rfl⟩ := h
    simp [Expr.emitted, values_argsPieces native args a ha]
  | .convert target expression type, listing, pieces, h => by
    simp only [Expr.pieces, bind_eq_ok, pure_eq_ok] at h
    obtain ⟨v, hv, rfl⟩ := h
    simp [Expr.emitted, Expr.values_pieces native expression _ v hv]
  | .aggregation function expression type, listing, pieces, h => by
    simp only [Expr.pieces] at h
    split at h
    · rename_i hc
      simp only [Except.ok.injEq] at h
      simp [← h, Expr.emitted, hc]
    · rename_i hc
      simp only [bind_eq_ok, pure_eq_ok] at h
      obtain ⟨v, hv, rfl⟩ := h
      simp [Expr.emitted, hc, Expr.values_pieces native expression _ v hv]
  | .rowNumber orderings, listing, pieces, h => by
    simp only [Expr.pieces, bind_eq_ok, pure_eq_ok] at h
    obtain ⟨o, ho, rfl⟩ := h
    simp [Expr.emitted, values_orderingsPieces native orderings o ho]
  | .named ⟨name, expression⟩, listing, pieces, h => by
    simp only [Expr.pieces] at h
    unfold Expr.emitted
    cases listing with
    | grouped => exact Expr.values_pieces native expression .grouped pieces h
    | projected => exact values_namedPieces (Expr.values_pieces native expression .projected) h
  | .compound members, listing, pieces, h => by
    simp only [Expr.pieces, bind_eq_ok, pure_eq_ok] at h
    obtain ⟨m, hm, rfl⟩ := h
    simp [Expr.emitted, values_membersPieces native members listing m hm]
  | .subStatement statement, listing, pieces, h => by
    simp only [Expr.pieces, bind_eq_ok, pure_eq_ok] at h
    obtain ⟨s, hs, rfl⟩ := h
    simp [Expr.emitted, Statement.values_pieces native statement true s hs]
  | .tableReference key type, listing, pieces, h => by simp [Expr.pieces] at h
  | .member source name type, listing, pieces, h => by simp [Expr.pieces] at h
  | .navigation e member type, listing, pieces, h => by simp [Expr.pieces] at h
  | .call c, listing, pieces, h => by simp [Expr.pieces] at h

theorem values_optionPieces (native : Bool) :
    ∀ (e : Option Expr) (listing : Listing) (pieces : Option (List Piece)),
    optionPieces native listing e = .ok pieces → (pieces.map values).getD [] = optionEmitted e
  | none, listing, pieces, h => by
    simp only [optionPieces, Except.ok.injEq] at h
    simp [← h, optionEmitted]
  | some e, listing, pieces, h => by
    simp only [optionPieces, bind_eq_ok, pure_eq_ok] at h
    obtain ⟨p, hp, rfl⟩ := h
    simp [optionEmitted, Expr.values_pieces native e _ p hp]

theorem values_argsPieces (native : Bool) : ∀ (args : List Expr) (pieces : List (List Piece)),
    argsPieces native args = .ok pieces → pieces.flatMap values = argsEmitted args
  | [], pieces, h => by
    simp only [argsPieces, Except.ok.injEq] at h
    simp [← h, argsEmitted]
  | e :: rest, pieces, h => by
    simp only [argsPieces, bind_eq_ok, pure_eq_ok] at h
    obtain ⟨p, hp, r, hr, rfl⟩ := h
    simp [argsEmitted, Expr.values_pieces native e _ p hp, values_argsPieces native rest r hr]

theorem values_branchesPieces (native : Bool) :
    ∀ (branches : List (Expr × Expr)) (pieces : List Piece),
    branchesPieces native branches = .ok pieces → values pieces = branchesEmitted branches
  | [], pieces, h => by
    simp only [branchesPieces, Except.ok.injEq] at h
    simp [← h, branchesEmitted]
  | (test, value) :: rest, pieces, h => by
    simp only [branchesPieces, bind_eq_ok, pure_eq_ok] at h
    obtain ⟨t, ht, v, hv, r, hr, rfl⟩ := h
    simp [branchesEmitted, Expr.values_pieces native test _ t (pieces_of_predicatePieces ht),
      Expr.values_pieces native value _ v hv, values_branchesPieces native rest r hr]

theorem values_orderingsPieces (native : Bool) :
    ∀ (orderings : List Ordering) (pieces : List (List Piece)),
    orderingsPieces native orderings = .ok pieces →
      pieces.flatMap values = orderingsEmitted orderings
  | [], pieces, h => by
    simp only [orderingsPieces, Except.ok.injEq] at h
    simp [← h, orderingsEmitted]
  | ⟨e, direction⟩ :: rest, pieces, h => by
    simp only [orderingsPieces, bind_eq_ok, pure_eq_ok] at h
    obtain ⟨p, hp, r, hr, rfl⟩ := h
    simp [orderingsEmitted, Expr.values_pieces native e _ p hp,
      values_orderingsPieces native rest r hr]

theorem values_membersPieces (native : Bool) :
    ∀ (members : List Named) (listing : Listing) (pieces : List (List Piece)),
    membersPieces native listing members = .ok pieces →
      pieces.flatMap values = membersEmitted members
  | [], listing, pieces, h => by
    simp only [membersPieces, Except.ok.injEq] at h
    simp [← h, membersEmitted]
  | ⟨name, e⟩ :: rest, .grouped, pieces, h => by
    simp only [membersPieces, bind_eq_ok, pure_eq_ok] at h
    obtain ⟨p, hp, r, hr, rfl⟩ := h
    simp [membersEmitted, Expr.values_pieces native e .grouped p hp,
      values_membersPieces native rest .grouped r hr]
  | ⟨name, e⟩ :: rest, .projected, pieces, h => by
    simp only [membersPieces, bind_eq_ok, pure_eq_ok] at h
    obtain ⟨p, hp, r, hr, rfl⟩ := h
    have first := values_namedPieces (Expr.values_pieces native e .projected) hp
    simp [membersEmitted, first, values_membersPieces native rest .projected r hr]

theorem Source.values_pieces (native : Bool) : ∀ (source : Source) (pieces : List Piece),
    source.pieces native = .ok pieces → values pieces = source.emitted
  | .table itemType tableName tableAlias, pieces, h => by
    simp only [Source.pieces, Except.ok.injEq] at h
    simp [← h, Source.emitted]
  | .statement tableAlias statement, pieces, h => by
    simp only [Source.pieces, bind_eq_ok, pure_eq_ok] at h
    obtain ⟨s, hs, rfl⟩ := h
    simp [Source.emitted, Statement.values_pieces native statement true s hs]
  | .unresolved itemType, pieces, h => by simp [Source.pieces] at h

theorem values_joinsPieces (native : Bool) : ∀ (joins : List Join) (pieces : List Piece),
    joinsPieces native joins = .ok pieces → values pieces = joinsEmitted joins
  | [], pieces, h => by
    simp only [joinsPieces, Except.ok.injEq] at h
    simp [← h, joinsEmitted]
  | ⟨member, kind, .unresolved origin name, joins⟩ :: rest, pieces, h => by
    simp [joinsPieces] at h
  | ⟨member, kind, .resolved source leftKey rightKey, joins⟩ :: rest, pieces, h => by
    simp only [joinsPieces, bind_eq_ok, pure_eq_ok] at h
    obtain ⟨s, hs, l, hl, r, hr, b, hb, tail, ht, rfl⟩ := h
    simp [joinsEmitted, Source.values_pieces native source s hs,
      Expr.values_pieces native leftKey _ l hl, Expr.values_pieces native rightKey _ r hr,
      values_joinsPieces native joins b hb, values_joinsPieces native rest tail ht]

theorem values_tablesPieces (native : Bool) :
    ∀ (tables : List Table) (pieces : List (JoinKind × Source × List Piece)),
    tablesPieces native tables = .ok pieces →
      (pieces.flatMap fun table => values table.2.2) = tablesEmitted tables
  | [], pieces, h => by
    simp only [tablesPieces, Except.ok.injEq] at h
    simp [← h, tablesEmitted]
  | ⟨key, source, kind, joins⟩ :: rest, pieces, h => by
    simp only [tablesPieces, bind_eq_ok, pure_eq_ok] at h
    obtain ⟨s, hs, j, hj, tail, ht, rfl⟩ := h
    simp [tablesEmitted, Source.values_pieces native source s hs,
      values_joinsPieces native joins j hj, values_tablesPieces native rest tail ht]

/-- The pieces of a statement carry the values that it emits, in that order. -/
theorem Statement.values_pieces (native : Bool) :
    ∀ (s : Statement) (nested : Bool) (pieces : List Piece),
    s.pieces native nested = .ok pieces → values pieces = s.emitted nested
  | ⟨projection, tables, condition, grouping, orderings, top, isDistinct, rowNumber, rowOffset,
      shape⟩, nested, pieces, h => by
    simp only [Statement.pieces, bind_eq_ok] at h
    obtain ⟨t, ht, p, hp, f, hf, c, hc, g, hg, h⟩ := h
    have ordered : ∃ o, statementPieces isDistinct t p f c g o = pieces ∧
        o.flatMap values = if nested && !top.isSome then [] else orderingsEmitted orderings := by
      split at h <;> rename_i hlimited
      · refine ⟨[], pure_eq_ok.mp h, ?_⟩
        rw [if_pos hlimited, List.flatMap_nil]
      · obtain ⟨o, ho, h⟩ := bind_eq_ok.mp h
        refine ⟨o, pure_eq_ok.mp h, ?_⟩
        rw [if_neg hlimited, values_orderingsPieces native orderings o ho]
    obtain ⟨o, rfl, ho⟩ := ordered
    rw [values_statementPieces, values_optionPieces native top _ t ht,
      Expr.values_pieces native projection _ p hp, values_tablesPieces native tables f hf,
      values_conditionPieces native condition c hc, values_optionPieces native grouping _ g hg,
      ho, Statement.emitted]

theorem values_conditionPieces (native : Bool) :
    ∀ (e : Option Expr) (pieces : Option (List Piece)),
    conditionPieces native e = .ok pieces → (pieces.map values).getD [] = optionEmitted e
  | none, pieces, h => by
    simp only [conditionPieces, Except.ok.injEq] at h
    simp [← h, optionEmitted]
  | some e, pieces, h => by
    simp only [conditionPieces, bind_eq_ok, pure_eq_ok] at h
    obtain ⟨p, hp, rfl⟩ := h
    simp [optionEmitted, Expr.values_pieces native e _ p (pieces_of_predicatePieces hp)]

end

end Comprehension.Sql
