import Comprehension.Proofs.NullComparison

/-!
Negated conditions. The text of a comparison of two columns spells out which nulls satisfy it; for
the other nulls the bare comparison is left, which is neither true nor false, and neither is its
negation. A negated filter therefore accepts what the filter refuses on the rows on which the filter
is decided, and on no others.
-/
namespace Comprehension

namespace Criteria

open Command
open Command.Piece (text)

/-- A text in one piece or in two is the same text. -/
theorem Spells.joined {a b : String} {rest : List Piece} {ws : List Word}
    (h : Spells (.text a :: .text b :: rest) ws) : Spells (.text (a ++ b) :: rest) ws := by
  intro before
  have apart := h before
  rw [written_cons, written_cons, ← List.append_assoc] at apart
  rw [written_cons]
  simpa [Piece.spelling] using apart

theorem Conveys.not {pieces : List Piece} {c : Condition} (h : Conveys pieces c) :
    Conveys ([text "NOT ("] ++ pieces ++ [text ")"]) (.not c) := by
  obtain ⟨ws, spells, run⟩ := h
  -- A divider starts with a blank or a mark, so the word and the parenthesis are read apart.
  have word : Spells [.text "NOT"] [.not] := spells_text (by decide)
  have opening : Divides " (" [.opening] := by decide
  have whole := word.divided opening (spells.divided divides_closing spells_nil)
  refine ⟨Word.not :: Word.opening :: (ws ++ [Word.closing]), ?_, fun level outer => ?_⟩
  · have joined : Spells (.text ("NOT" ++ " (") :: (pieces ++ [text ")"])) _ := whole.joined
    simpa using joined
  · obtain ⟨n, inner⟩ := run {} ({ level with negations := level.negations + 1 } :: outer)
    refine ⟨level.negations + 1, ?_⟩
    rw [Reader.run_cons]
    change Reader.run ⟨.expected, {}, { level with negations := level.negations + 1 } :: outer⟩
      (ws ++ [Word.closing]) = _
    rw [Reader.run_append, inner]
    rfl

end Criteria

namespace Sql

open Command

/-- Filters: comparisons of two columns that may be null and of a column with null, with connectives
and negations. -/
inductive Expr.IsFilter : Expr → Prop where
  | columns {op : BinaryOp} (a b : Column) (type : ValueType)
    (spelledOut : op ∈ [BinaryOp.equal, .notEqual, .lessThanOrEqual, .greaterThanOrEqual])
    (isLeft : a.type.admitsNull = true) (isRight : b.type.admitsNull = true) :
    IsFilter (.binary op (.column a) (.column b) type)
  | columnNull {op : BinaryOp} {null : Expr} (c : Column) (type : ValueType)
    (comparison : op.isComparison = true) (isNull : null.isNullConstant = true) :
    IsFilter (.binary op (.column c) null type)
  | nullColumn {op : BinaryOp} {null : Expr} (c : Column) (type : ValueType)
    (comparison : op.isComparison = true) (isNull : null.isNullConstant = true) :
    IsFilter (.binary op null (.column c) type)
  | logical (op : LogicalOp) {left right : Expr} (isLeft : left.IsFilter)
    (isRight : right.IsFilter) : IsFilter (.logical op left right)
  | not {operand : Expr} (isOperand : operand.IsFilter) : IsFilter (.not operand)

section Truth

variable {V : Type} [LinearOrder V] (number : Int → V) (row : String → String → Option V)

/-- How a filter comes out on a row: true, false, or neither. -/
def Expr.verdictOn : Expr → Option Bool
  | .binary op left right _ =>
    if right.isNullConstant then some (op.nullTest (left.valueOn number row))
    else if left.isNullConstant then some (op.nullTest (right.valueOn number row))
    else op.verdict (left.valueOn number row) (right.valueOn number row)
  | .logical op left right => op.truth left.verdictOn right.verdictOn
  | .not operand => operand.verdictOn.map (!·)
  | _ => none

/-- How the text of a condition comes out on a row, if it can be written and read. -/
def Expr.textTruth (native : Bool) (e : Expr) : Option (Option Bool) :=
  (predicatePieces native e (e.pieces native .projected)).toOption.bind fun pieces =>
    (Criteria.reading (ofPieces .sqlServer pieces).text).map fun c => c.truth number row

end Truth

namespace Expr

variable {e : Expr}

theorem isOperand_of_null (h : e.isNullConstant = true) : e.IsOperand := by
  unfold isNullConstant at h
  split at h
  · exact .nullConstant _
  · exact .nullLiteral
  · cases h

theorem IsFilter.isPredicate (h : e.IsFilter) : e.isPredicate = true := by
  cases h with
  | columns a b type spelledOut =>
    simp only [List.mem_cons, List.not_mem_nil, or_false] at spelledOut
    rcases spelledOut with rfl | rfl | rfl | rfl <;> rfl
  | columnNull _ _ comparison => exact comparison
  | nullColumn _ _ comparison => exact comparison
  | logical | not => rfl

section Truth

variable {V : Type} [LinearOrder V] (number : Int → V) (row : String → String → Option V)

/-- The text of a filter comes out as the filter does. -/
theorem IsFilter.conveyed (h : e.IsFilter) (native : Bool) :
    ∃ pieces c, e.pieces native .projected = .ok pieces ∧ Criteria.Conveys pieces c ∧
      c.truth number row = e.verdictOn number row := by
  induction h with
  | @columns op a b type spelledOut isLeft isRight =>
    have comparison : op.isComparison = true :=
      (IsFilter.columns a b type spelledOut isLeft isRight).isPredicate
    have nullable : (op.isComparison && isNullableColumn (.column a) &&
        isNullableColumn (.column b)) = true := by
      rw [comparison, isNullableColumn, isNullableColumn, isLeft, isRight]
      rfl
    obtain ⟨pieces, c, written, expresses, truth⟩ :=
      binaryPieces_of_nullable number row comparison rfl nullable
        (Criteria.spells_column a.owner a.name) (Criteria.spells_column b.owner b.name)
    rw [Expr.pieces, Expr.pieces, Expr.pieces]
    exact ⟨pieces, c, written, expresses.conveys, truth⟩
  | @columnNull op null c type comparison isNull =>
    have constant : ((Expr.column c).isNullConstant || null.isNullConstant) = true := by
      rw [isNull, Bool.or_true]
    obtain ⟨r, writtenNull, -⟩ := (isOperand_of_null isNull).spelled native
    obtain ⟨pieces, condition, written, expresses, truth⟩ :=
      binaryPieces_of_null (r := r) number row comparison constant
        (by rw [isNull]; exact Criteria.spells_column c.owner c.name)
    rw [Expr.pieces, Expr.pieces, writtenNull, verdictOn, if_pos isNull]
    exact ⟨pieces, condition, written, expresses.conveys, truth⟩
  | @nullColumn op null c type comparison isNull =>
    have constant : (null.isNullConstant || (Expr.column c).isNullConstant) = true := by
      rw [isNull, Bool.true_or]
    obtain ⟨l, writtenNull, -⟩ := (isOperand_of_null isNull).spelled native
    obtain ⟨pieces, condition, written, expresses, truth⟩ :=
      binaryPieces_of_null (l := l) number row comparison constant
        (Criteria.spells_column c.owner c.name)
    have subject : ¬ (Expr.column c).isNullConstant = true := Bool.false_ne_true
    rw [Expr.pieces, Expr.pieces, writtenNull, verdictOn, if_neg subject, if_pos isNull]
    exact ⟨pieces, condition, written, expresses.conveys, truth⟩
  | logical op isLeft isRight ihLeft ihRight =>
    obtain ⟨l, c, writtenL, conveysL, truthL⟩ := ihLeft
    obtain ⟨r, d, writtenR, conveysR, truthR⟩ := ihRight
    refine ⟨_, _, ?_, (conveysL.logical op conveysR).conveys, ?_⟩
    · rw [Expr.pieces, predicatePieces, predicatePieces, isLeft.isPredicate, isRight.isPredicate,
        writtenL, writtenR]
      rfl
    · rw [Criteria.Condition.truth, verdictOn, truthL, truthR]
  | not isOperand ih =>
    obtain ⟨pieces, c, written, conveys, truth⟩ := ih
    refine ⟨_, _, ?_, conveys.not, ?_⟩
    · rw [Expr.pieces, predicatePieces, isOperand.isPredicate, written]
      rfl
    · rw [Criteria.Condition.truth, verdictOn, truth]

theorem IsFilter.textTruth_eq (h : e.IsFilter) (native : Bool) :
    e.textTruth number row native = some (e.verdictOn number row) := by
  obtain ⟨pieces, c, written, conveys, truth⟩ := h.conveyed number row native
  rw [textTruth, predicatePieces, h.isPredicate, written, ← truth]
  change (Criteria.reading (ofPieces .sqlServer pieces).text).map _ = _
  rw [conveys.reading]
  rfl

end Truth

end Expr

section Verdicts

variable {V : Type} [LinearOrder V]

/-- What is decided is accepted or else its negation is; what is not is refused both ways. -/
theorem accepts_not_iff (verdict : Option Bool) :
    (verdict.map (!·) = some true ↔ verdict ≠ some true) ↔ verdict.isSome = true := by
  cases verdict with
  | none => decide
  | some b => cases b <;> decide

namespace BinaryOp

/-- The nulls that leave a comparison of two columns undecided. -/
theorem verdict_eq_none_iff {op : BinaryOp}
    (spelledOut : op ∈ [BinaryOp.equal, .notEqual, .lessThanOrEqual, .greaterThanOrEqual])
    (a b : Option V) :
    op.verdict a b = none ↔
      if op = .notEqual then a = none ∧ b = none else a.isSome ≠ b.isSome := by
  simp only [List.mem_cons, List.not_mem_nil, or_false] at spelledOut
  rcases spelledOut with rfl | rfl | rfl | rfl <;> cases a <;> cases b <;> simp [verdict, nullRule]

theorem not_equal_accepts_iff (a b : Option V) :
    ((equal.verdict a b).map (!·) = some true ↔ notEqual.verdict a b = some true) ↔
      a.isSome = b.isSome := by
  cases a <;> cases b <;> simp [verdict, nullRule, Criteria.relates]

end BinaryOp

/-- The text of a negated filter is true on the rows on which the text of the filter is false. On the
rows on which that is neither, both texts are refused, and on no others. Of two columns, one null
leaves an equality undecided and makes a difference true. -/
theorem negated_text_true_iff (number : Int → V) (row : String → String → Option V)
    (native : Bool) :
    (∀ e : Expr, e.IsFilter →
      e.textTruth number row native = some (e.verdictOn number row) ∧
      (Expr.not e).textTruth number row native = some ((e.verdictOn number row).map (!·)) ∧
      (((Expr.not e).textTruth number row native = some (some true) ↔
          e.textTruth number row native ≠ some (some true)) ↔
        (e.verdictOn number row).isSome = true)) ∧
    ∀ a b : Column, a.type.admitsNull = true → b.type.admitsNull = true →
      (∀ op ∈ [BinaryOp.equal, .notEqual, .lessThanOrEqual, .greaterThanOrEqual],
        (Expr.binaryOf op (.column a) (.column b)).textTruth number row native = some none ↔
          if op = .notEqual then row a.owner a.name = none ∧ row b.owner b.name = none
          else (row a.owner a.name).isSome ≠ (row b.owner b.name).isSome) ∧
      (((Expr.not (.equal (.column a) (.column b))).textTruth number row native =
            some (some true) ↔
          (Expr.binaryOf .notEqual (.column a) (.column b)).textTruth number row native =
            some (some true)) ↔
        (row a.owner a.name).isSome = (row b.owner b.name).isSome) := by
  refine ⟨fun e h => ?_, fun a b isLeft isRight => ⟨fun op spelledOut => ?_, ?_⟩⟩
  · have negated : (Expr.not e).textTruth number row native =
        some ((e.verdictOn number row).map (!·)) := h.not.textTruth_eq number row native
    refine ⟨h.textTruth_eq number row native, negated, ?_⟩
    rw [negated, h.textTruth_eq, ne_eq, Option.some_inj, Option.some_inj]
    exact accepts_not_iff _
  · have filter : (Expr.binaryOf op (.column a) (.column b)).IsFilter :=
      .columns a b _ spelledOut isLeft isRight
    rw [filter.textTruth_eq, Option.some_inj]
    exact BinaryOp.verdict_eq_none_iff spelledOut _ _
  · have equal : (Expr.equal (.column a) (.column b)).IsFilter :=
      .columns a b _ (by decide) isLeft isRight
    have notEqual : (Expr.binaryOf .notEqual (.column a) (.column b)).IsFilter :=
      .columns a b _ (by decide) isLeft isRight
    rw [equal.not.textTruth_eq, notEqual.textTruth_eq, Option.some_inj, Option.some_inj]
    exact BinaryOp.not_equal_accepts_iff _ _

end Verdicts

namespace Expr

def managerColumn : Column := ⟨.nullable .int32, "t0", "ManagerID", false⟩

def mentorColumn : Column := ⟨.nullable .int32, "t0", "MentorID", false⟩

/-- Cooks whose manager is their mentor. -/
def managerMentors : Expr := .equal (.column managerColumn) (.column mentorColumn)

/-- Cooks who have a manager, or whose manager is their mentor. -/
def managedOrMentored : Expr :=
  .logical .or managerMentors
    (.not (.equal (.column managerColumn) (.constant .null (.nullable .int32))))

/-- A cook with a manager and without a mentor. -/
def mentorless (_ name : String) : Option Int :=
  if name = "ManagerID" then some 7 else none

theorem managerMentors_isFilter : managerMentors.IsFilter :=
  .columns _ _ _ (by decide) rfl rfl

theorem managedOrMentored_negated :
    managedOrMentored.IsFilter ∧ managedOrMentored.verdictOn id mentorless = some true ∧
      ((Expr.not managedOrMentored).textTruth id mentorless false = some (some true) ↔
        managedOrMentored.textTruth id mentorless false ≠ some (some true)) ∧
      managerColumn.type.admitsNull = true ∧ mentorColumn.type.admitsNull = true ∧
      ¬ ((Expr.not managerMentors).textTruth id mentorless false = some (some true) ↔
        (Expr.binaryOf .notEqual (.column managerColumn) (.column mentorColumn)).textTruth id
          mentorless false = some (some true)) := by
  have filter : managedOrMentored.IsFilter :=
    .logical .or managerMentors_isFilter (.not (.columnNull _ _ rfl rfl))
  obtain ⟨filters, columns⟩ := negated_text_true_iff id mentorless false
  obtain ⟨-, -, complements⟩ := filters managedOrMentored filter
  obtain ⟨-, agrees⟩ := columns managerColumn mentorColumn rfl rfl
  exact ⟨filter, rfl, complements.mpr rfl, rfl, rfl, fun same => absurd (agrees.mp same) (by decide)⟩

/-- On a cook without a mentor the equality and its negation are both refused, though manager and
mentor differ. -/
theorem managerMentors_refused_negated :
    managerMentors.IsFilter ∧
      managerMentors.textTruth id mentorless false = some none ∧
      (Expr.not managerMentors).textTruth id mentorless false = some none ∧
      (Expr.binaryOf .notEqual (.column managerColumn) (.column mentorColumn)).textTruth id
        mentorless false = some (some true) ∧
      ¬ ((Expr.not managerMentors).textTruth id mentorless false = some (some true) ↔
        managerMentors.textTruth id mentorless false ≠ some (some true)) := by
  have equal : managerMentors.textTruth id mentorless false = some none :=
    managerMentors_isFilter.textTruth_eq id mentorless false
  have negated : (Expr.not managerMentors).textTruth id mentorless false = some none :=
    managerMentors_isFilter.not.textTruth_eq id mentorless false
  have different :
      (Expr.binaryOf .notEqual (.column managerColumn) (.column mentorColumn)).IsFilter :=
    .columns _ _ _ (by decide) rfl rfl
  refine ⟨managerMentors_isFilter, equal, negated, different.textTruth_eq id mentorless false, ?_⟩
  rw [equal, negated]
  decide

end Expr

end Sql

end Comprehension
