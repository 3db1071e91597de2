import Comprehension.Proofs.ConditionReading
import Comprehension.Proofs.LexicalClosure

/-!
Comparisons and nulls. The text of a condition spells out what a null satisfies, so that under three
truth values it is true on just the rows on which the condition holds when two nulls are taken as
equal and a null as different from every value.
-/
namespace Comprehension

namespace Criteria

open Command
open Command.Piece (text)
open Sql (BinaryOp LogicalOp)

/-- The words that pieces are read as, whatever parameters stand before them. -/
def Spells (pieces : List Piece) (ws : List Word) : Prop :=
  ∀ before, lexemes (written before pieces) = some ws

theorem spells_nil : Spells [] [] := fun _ => lexemes_nil

theorem Spells.divided {a b : List Piece} {text : String} {ws between ws' : List Word}
    (ha : Spells a ws) (divides : Divides text between) (hb : Spells b ws') :
    Spells (a ++ .text text :: b) (ws ++ (between ++ ws')) := by
  intro before
  rw [written_append, written_cons]
  exact lexemes_divided (ha before) divides (hb _)

theorem spells_text {text : String} {ws : List Word} (h : lexemes text.toList = some ws) :
    Spells [.text text] ws := by
  intro before
  rw [written_cons]
  simpa [written, spelled, Piece.spelling] using h

theorem spells_column (owner name : String) :
    Spells (columnPieces owner name) [.operand (.column owner name)] := by
  intro before
  have dot : Lexing.isSeparator "." = true := rfl
  have quoted (text : String) :
      Lexing.scan (Dialect.sqlServer.quote text).toList = some [.name text] := by
    have scanned := Lexing.scan_enclosed .bracket text
    rwa [Lexing.Delimiter.token, String.ofList_toList] at scanned
  have dotted {cs : List Char} {tokens : List Lexing.Token} (h : Lexing.scan cs = some tokens) :
      Lexing.scan ((Dialect.sqlServer.quote owner).toList ++ ".".toList ++ cs) =
        some ([Lexing.Token.name owner] ++ [Lexing.Token.mark '.'] ++ tokens) :=
    Lexing.scan_append
      (Lexing.scan_append (quoted owner) (Lexing.scan_separator dot) (Lexing.joins_separator dot _))
      h (Lexing.separator_joins dot _ _)
  by_cases star : name = "*"
  · have bare : Lexing.scan "*".toList = some [.mark '*'] := rfl
    have scanned := dotted bare
    have written : written before (columnPieces owner name) =
        (Dialect.sqlServer.quote owner).toList ++ ".".toList ++ "*".toList := by
      simp [columnPieces, star, written, spelled, Piece.spelling]
    rw [written, lexemes, scanned, star]
    rfl
  · have scanned := dotted (quoted name)
    have written : written before (columnPieces owner name) =
        (Dialect.sqlServer.quote owner).toList ++ ".".toList ++
          (Dialect.sqlServer.quote name).toList := by
      simp [columnPieces, star, written, spelled, Piece.spelling]
    rw [written, lexemes, scanned]
    rfl

/-- Pieces that are read as a condition wherever one may stand. -/
def Expresses (pieces : List Piece) (c : Condition) : Prop :=
  ∃ ws, Spells pieces ws ∧ ∀ level outer,
    Reader.run ⟨.expected, level, outer⟩ ws = some ⟨.complete (level.negated c), level, outer⟩

/-- Pieces that are read as a condition, where negations in front of them may stay on the level;
nothing counts them any more. -/
def Conveys (pieces : List Piece) (c : Condition) : Prop :=
  ∃ ws, Spells pieces ws ∧ ∀ level outer, ∃ negations,
    Reader.run ⟨.expected, level, outer⟩ ws =
      some ⟨.complete (level.negated c), { level with negations }, outer⟩

theorem Expresses.conveys {pieces : List Piece} {c : Condition} (h : Expresses pieces c) :
    Conveys pieces c := by
  obtain ⟨ws, spells, run⟩ := h
  exact ⟨ws, spells, fun level outer => ⟨level.negations, run level outer⟩⟩

theorem Conveys.reading {pieces : List Piece} {c : Condition} (h : Conveys pieces c) :
    reading (ofPieces .sqlServer pieces).text = some c := by
  obtain ⟨ws, spells, run⟩ := h
  obtain ⟨negations, whole⟩ := run {} []
  rw [Criteria.reading, toList_text_ofPieces, spells 0, Option.bind_some, Reader.start, whole]
  rfl

theorem Expresses.reading {pieces : List Piece} {c : Condition} (h : Expresses pieces c) :
    reading (ofPieces .sqlServer pieces).text = some c :=
  h.conveys.reading

theorem divides_opening : Divides "(" [.opening] := by decide

theorem divides_closing : Divides ")" [.closing] := by decide

/-- A connective between two conditions. Its parentheses keep their negations inside. -/
theorem Conveys.logical {l r : List Piece} {c d : Condition} (op : LogicalOp)
    (hl : Conveys l c) (hr : Conveys r d) :
    Expresses ([text "("] ++ l ++ [text (" " ++ logicalText op ++ " ")] ++ r ++ [text ")"])
      (.logical op c d) := by
  obtain ⟨ws, spellsL, runL⟩ := hl
  obtain ⟨ws', spellsR, runR⟩ := hr
  have connective : Divides (" " ++ logicalText op ++ " ") [.logical op] := by cases op <;> decide
  have spells := spells_nil.divided divides_opening
    (spellsL.divided connective (spellsR.divided divides_closing spells_nil))
  refine ⟨Word.opening :: (ws ++ Word.logical op :: (ws' ++ [Word.closing])),
    by simpa using spells, fun level outer => ?_⟩
  obtain ⟨_, first⟩ := runL {} (level :: outer)
  rw [Reader.run_cons]
  change Reader.run ⟨.expected, {}, level :: outer⟩ _ = _
  rw [Reader.run_append, first, Option.bind_some, Reader.run_cons]
  cases op with
  | and =>
    obtain ⟨_, second⟩ := runR ⟨none, some c, 0⟩ (level :: outer)
    change Reader.run ⟨.expected, ⟨none, some c, 0⟩, level :: outer⟩ _ = _
    rw [Reader.run_append, second]
    rfl
  | or =>
    obtain ⟨_, second⟩ := runR ⟨some c, none, 0⟩ (level :: outer)
    change Reader.run ⟨.expected, ⟨some c, none, 0⟩, level :: outer⟩ _ = _
    rw [Reader.run_append, second]
    rfl

theorem Expresses.logical {l r : List Piece} {c d : Condition} (op : LogicalOp)
    (hl : Expresses l c) (hr : Expresses r d) :
    Expresses ([text "("] ++ l ++ [text (" " ++ logicalText op ++ " ")] ++ r ++ [text ")"])
      (.logical op c d) :=
  hl.conveys.logical op hr.conveys

/-- A test for null. -/
theorem expresses_isNull {subject : List Piece} {x : Operand} (h : Spells subject [.operand x]) :
    Expresses ([text "("] ++ subject ++ [text " IS NULL)"]) (.isNull x) := by
  have test : Divides " IS NULL)" [.is, .operand .null, .closing] := by decide
  have spells := spells_nil.divided divides_opening (h.divided test spells_nil)
  exact ⟨_, by simpa using spells, fun level outer => rfl⟩

theorem expresses_isNotNull {subject : List Piece} {x : Operand} (h : Spells subject [.operand x]) :
    Expresses ([text "("] ++ subject ++ [text " IS NOT NULL)"]) (.isNotNull x) := by
  have test : Divides " IS NOT NULL)" [.is, .not, .operand .null, .closing] := by decide
  have spells := spells_nil.divided divides_opening (h.divided test spells_nil)
  exact ⟨_, by simpa using spells, fun level outer => rfl⟩

/-- What no row satisfies. -/
theorem expresses_never : Expresses [text "(1 <> 1)"] (.compare .notEqual (.number 1) (.number 1)) :=
  ⟨_, spells_text rfl, fun _ _ => rfl⟩

section Comparison

variable {l r : List Piece} {x y : Operand} {op : BinaryOp}

/-- A comparison without parentheses. -/
theorem spells_comparison (hl : Spells l [.operand x]) (comparison : op.isComparison = true)
    (hr : Spells r [.operand y]) :
    Spells (l ++ [text " ", operatorPiece op, text " "] ++ r)
      [.operand x, .comparison op, .operand y] := by
  have blank : Divides " " [] := by decide
  have operator : Spells [operatorPiece op] [.comparison op] := by
    cases op with
    | add | subtract | multiply | divide | modulo | concat => cases comparison
    | _ => exact spells_text (by decide)
  have spells := hl.divided blank (operator.divided blank hr)
  simpa using spells

theorem expresses_compare (hl : Spells l [.operand x]) (comparison : op.isComparison = true)
    (hr : Spells r [.operand y]) :
    Expresses ([text "("] ++ [] ++ (l ++ [text " ", operatorPiece op, text " "] ++ r) ++
      [text ")"]) (.compare op x y) := by
  have spells := spells_nil.divided divides_opening
    ((spells_comparison hl comparison hr).divided divides_closing spells_nil)
  exact ⟨_, by simpa using spells, fun level outer => rfl⟩

/-- A comparison that two nulls satisfy. -/
theorem expresses_bothNull (hl : Spells l [.operand x]) (comparison : op.isComparison = true)
    (hr : Spells r [.operand y]) :
    Expresses ([text "("] ++
      ([text "("] ++ l ++ [text " IS NULL AND "] ++ r ++ [text " IS NULL) OR "]) ++
      (l ++ [text " ", operatorPiece op, text " "] ++ r) ++ [text ")"])
      (.logical .or (.logical .and (.isNull x) (.isNull y)) (.compare op x y)) := by
  have first : Divides " IS NULL AND " [.is, .operand .null, .logical .and] := by decide
  have second : Divides " IS NULL) OR " [.is, .operand .null, .closing, .logical .or] := by decide
  have spells := spells_nil.divided divides_opening (spells_nil.divided divides_opening
    (hl.divided first (hr.divided second
      ((spells_comparison hl comparison hr).divided divides_closing spells_nil))))
  exact ⟨_, by simpa using spells, fun level outer => rfl⟩

/-- A comparison that a null and a value satisfy. -/
theorem expresses_oneNull (hl : Spells l [.operand x]) (comparison : op.isComparison = true)
    (hr : Spells r [.operand y]) :
    Expresses ([text "("] ++
      ([text "("] ++ l ++ [text " IS NULL AND "] ++ r ++ [text " IS NOT NULL) OR ("] ++
        l ++ [text " IS NOT NULL AND "] ++ r ++ [text " IS NULL) OR "]) ++
      (l ++ [text " ", operatorPiece op, text " "] ++ r) ++ [text ")"])
      (.logical .or (.logical .or (.logical .and (.isNull x) (.isNotNull y))
        (.logical .and (.isNotNull x) (.isNull y))) (.compare op x y)) := by
  have first : Divides " IS NULL AND " [.is, .operand .null, .logical .and] := by decide
  have second : Divides " IS NOT NULL) OR ("
      [.is, .not, .operand .null, .closing, .logical .or, .opening] := by decide
  have third : Divides " IS NOT NULL AND " [.is, .not, .operand .null, .logical .and] := by decide
  have fourth : Divides " IS NULL) OR " [.is, .operand .null, .closing, .logical .or] := by decide
  have spells := spells_nil.divided divides_opening (spells_nil.divided divides_opening
    (hl.divided first (hr.divided second (hl.divided third (hr.divided fourth
      ((spells_comparison hl comparison hr).divided divides_closing spells_nil))))))
  exact ⟨_, by simpa using spells, fun level outer => rfl⟩

end Comparison

end Criteria

namespace Sql

open Command

section Reference

variable {V : Type} (number : Int → V) (row : String → String → Option V)

/-- What an operand stands for on a row; a null is no value. -/
def Expr.valueOn : Expr → Option V
  | .column c => row c.owner c.name
  | .literal (.int n) => some (number n)
  | _ => none

variable [LinearOrder V]

/-- Whether two operands satisfy a comparison, which is true or false: two nulls are equal, and a
null differs from every value and is in no order with it. -/
def BinaryOp.Accepts (op : BinaryOp) (left right : Option V) : Prop :=
  match op, left, right with
  | .equal, none, none | .lessThanOrEqual, none, none | .greaterThanOrEqual, none, none => True
  | .notEqual, none, some _ | .notEqual, some _, none => True
  | .equal, some a, some b => a = b
  | .notEqual, some a, some b => a ≠ b
  | .lessThan, some a, some b => a < b
  | .lessThanOrEqual, some a, some b => a ≤ b
  | .greaterThan, some a, some b => a > b
  | .greaterThanOrEqual, some a, some b => a ≥ b
  | _, _, _ => False

/-- Whether a condition of comparisons holds on a row. -/
def Expr.HoldsOn : Expr → Prop
  | .binary op left right _ => op.Accepts (left.valueOn number row) (right.valueOn number row)
  | .logical .and left right => left.HoldsOn ∧ right.HoldsOn
  | .logical .or left right => left.HoldsOn ∨ right.HoldsOn
  | _ => False

/-- What a comparison with the null constant says of the other side. -/
def BinaryOp.nullTest (op : BinaryOp) (a : Option V) : Bool :=
  match nullRule op with
  | .bothNull => a.isNone
  | .oneNull => a.isSome
  | .never => false

/-- How a comparison of two columns comes out that spells out what a null satisfies: a null that does
not satisfy it leaves it neither true nor false. -/
def BinaryOp.verdict (op : BinaryOp) : Option V → Option V → Option Bool
  | some a, some b => some (Criteria.relates op a b)
  | none, none => if nullRule op = .bothNull then some true else none
  | _, _ => if nullRule op = .oneNull then some true else none

section Rules

variable {op : BinaryOp} {a b : Option V}

theorem BinaryOp.nullTest_iff (comparison : op.isComparison = true) :
    op.nullTest a = true ↔ op.Accepts a none := by
  cases op <;> cases comparison <;> cases a <;> simp [nullTest, nullRule, Accepts]

theorem BinaryOp.verdict_iff (comparison : op.isComparison = true) :
    op.verdict a b = some true ↔ op.Accepts a b := by
  cases op <;> cases comparison <;> cases a <;> cases b <;>
    simp [verdict, nullRule, Accepts, Criteria.relates]

theorem BinaryOp.accepts_bothNull (rule : nullRule op = .bothNull) :
    op.Accepts a b ↔
      (a = none ∧ b = none) ∨ ∃ v, a = some v ∧ ∃ w, b = some w ∧ Criteria.relates op v w = true := by
  cases op <;> cases rule <;> cases a <;> cases b <;> simp [Accepts, Criteria.relates]

theorem BinaryOp.accepts_oneNull (rule : nullRule op = .oneNull) :
    op.Accepts a b ↔
      ((a = none ∧ b.isSome = true) ∨ a.isSome = true ∧ b = none) ∨
        ∃ v, a = some v ∧ ∃ w, b = some w ∧ Criteria.relates op v w = true := by
  cases op <;> cases rule
  cases a <;> cases b <;> simp [Accepts, Criteria.relates]

theorem BinaryOp.accepts_never (comparison : op.isComparison = true) (rule : nullRule op = .never) :
    op.Accepts a b ↔
      ∃ v, a = some v ∧ ∃ w, b = some w ∧ Criteria.relates op v w = true := by
  cases op <;> cases rule <;> cases comparison <;> cases a <;> cases b <;>
    simp [Accepts, Criteria.relates]

end Rules

end Reference

/-- The operands of comparisons. -/
inductive Expr.IsOperand : Expr → Prop where
  | column (c : Column) : IsOperand (.column c)
  | number (n : Int) : IsOperand (.literal (.int n))
  | nullConstant (type : ValueType) : IsOperand (.constant .null type)
  | nullLiteral : IsOperand (.literal .null)

/-- Conditions of comparisons. Whether they differ is not asked of a column that may be null and
something else that is never null. -/
inductive Expr.IsCriterion : Expr → Prop where
  | comparison {op : BinaryOp} {left right : Expr} {type : ValueType}
    (comparison : op.isComparison = true) (isLeft : left.IsOperand) (isRight : right.IsOperand)
    (paired : op = .notEqual → left.isNullConstant = true ∨ right.isNullConstant = true ∨
      isNullableColumn left = isNullableColumn right) :
    IsCriterion (.binary op left right type)
  | logical (op : LogicalOp) {left right : Expr} (isLeft : left.IsCriterion)
    (isRight : right.IsCriterion) : IsCriterion (.logical op left right)

/-- The columns in a condition of comparisons. -/
def Expr.comparedColumns : Expr → List Column
  | .column c => [c]
  | .binary _ left right _ | .logical _ left right => left.comparedColumns ++ right.comparedColumns
  | _ => []

namespace Expr

/-- What an operand is read as. -/
def operand : Expr → Criteria.Operand
  | .column c => .column c.owner c.name
  | .literal (.int n) => .number n
  | _ => .null

variable {e left right : Expr}

theorem IsOperand.spelled (h : e.IsOperand) (native : Bool) :
    ∃ pieces, e.pieces native .projected = .ok pieces ∧
      Criteria.Spells pieces [.operand e.operand] := by
  have null : Criteria.Spells [.text "NULL"] [.operand .null] := Criteria.spells_text (by decide)
  cases h with
  | column c =>
    rw [Expr.pieces]
    exact ⟨_, rfl, Criteria.spells_column c.owner c.name⟩
  | number n =>
    rw [Expr.pieces]
    exact ⟨_, rfl, Criteria.spells_text (Criteria.lexemes_int n)⟩
  | nullConstant type =>
    rw [Expr.pieces]
    exact ⟨_, rfl, null⟩
  | nullLiteral =>
    rw [Expr.pieces]
    exact ⟨_, rfl, null⟩

section Truth

variable {V : Type} {number : Int → V} {row : String → String → Option V}

theorem IsOperand.value_operand (h : e.IsOperand) :
    e.operand.value number row = e.valueOn number row := by
  cases h <;> rfl

theorem valueOn_of_null (h : e.isNullConstant = true) : e.valueOn number row = none := by
  unfold isNullConstant at h
  split at h
  · rfl
  · rfl
  · cases h

/-- What is neither null nor a column that may be null has a value. -/
theorem IsOperand.exists_valueOn (number : Int → V) (h : e.IsOperand) (notNull : e.isNullConstant = false)
    (notNullable : isNullableColumn e = false)
    (valued : ∀ c ∈ e.comparedColumns, c.type.admitsNull = false → (row c.owner c.name).isSome = true) :
    ∃ v, e.valueOn number row = some v := by
  cases h with
  | column c => exact Option.isSome_iff_exists.mp (valued c List.mem_cons_self notNullable)
  | number n => exact ⟨number n, rfl⟩
  | nullConstant type => cases notNull
  | nullLiteral => cases notNull

variable [LinearOrder V] {op : BinaryOp} {l r : List Piece} {x y : Criteria.Operand}

/-- A comparison with the null constant is a test of the other side. -/
theorem binaryPieces_of_null (number : Int → V) (row : String → String → Option V)
    (comparison : op.isComparison = true)
    (null : (left.isNullConstant || right.isNullConstant) = true)
    (subject : Criteria.Spells (if right.isNullConstant then l else r) [.operand x]) :
    ∃ pieces c, binaryPieces op left right (.ok l) (.ok r) = .ok pieces ∧
      Criteria.Expresses pieces c ∧
      c.truth number row = some (op.nullTest (x.value number row)) := by
  have moved : (if right.isNullConstant then Except.ok l else .ok r : Rendered) =
      .ok (if right.isNullConstant then l else r) := by
    split <;> rfl
  unfold binaryPieces
  rw [if_pos (by rw [comparison, null]; rfl), moved]
  generalize (if right.isNullConstant then l else r) = tested at subject
  cases rule : nullRule op with
  | bothNull =>
    refine ⟨_, _, rfl, Criteria.expresses_isNull subject, ?_⟩
    simp [Criteria.Condition.truth, BinaryOp.nullTest, rule]
  | oneNull =>
    refine ⟨_, _, rfl, Criteria.expresses_isNotNull subject, ?_⟩
    simp [Criteria.Condition.truth, BinaryOp.nullTest, rule]
  | never =>
    refine ⟨_, _, rfl, Criteria.expresses_never, ?_⟩
    simp [Criteria.Condition.truth, Criteria.Operand.value, Criteria.relates, BinaryOp.nullTest, rule]

theorem truth_compare :
    (Criteria.Condition.compare op x y).truth number row = some true ↔
      ∃ v, x.value number row = some v ∧ ∃ w, y.value number row = some w ∧
        Criteria.relates op v w = true := by
  simp [Criteria.Condition.truth, Option.bind_eq_some_iff]

/-- What a comparison says about nulls, in front of the comparison itself. -/
theorem binaryPieces_of_notNull (notNull : (left.isNullConstant || right.isNullConstant) = false) :
    binaryPieces op left right (.ok l) (.ok r) = .ok ([Piece.text "("] ++
      (if op.isComparison && isNullableColumn left && isNullableColumn right then
        match nullRule op with
        | .bothNull =>
          [Piece.text "("] ++ l ++ [Piece.text " IS NULL AND "] ++ r ++
            [Piece.text " IS NULL) OR "]
        | .oneNull =>
          [Piece.text "("] ++ l ++ [Piece.text " IS NULL AND "] ++ r ++
            [Piece.text " IS NOT NULL) OR ("] ++ l ++ [Piece.text " IS NOT NULL AND "] ++ r ++
            [Piece.text " IS NULL) OR "]
        | .never => []
      else []) ++ (l ++ [Piece.text " ", operatorPiece op, .text " "] ++ r) ++
        [Piece.text ")"]) := by
  unfold binaryPieces
  rw [if_neg (by rw [notNull, Bool.and_false]; exact Bool.false_ne_true)]
  rfl

/-- A comparison of two columns that may be null spells out what a null satisfies. -/
theorem binaryPieces_of_nullable (number : Int → V) (row : String → String → Option V)
    (comparison : op.isComparison = true)
    (notNull : (left.isNullConstant || right.isNullConstant) = false)
    (nullable : (op.isComparison && isNullableColumn left && isNullableColumn right) = true)
    (hl : Criteria.Spells l [.operand x]) (hr : Criteria.Spells r [.operand y]) :
    ∃ pieces c, binaryPieces op left right (.ok l) (.ok r) = .ok pieces ∧
      Criteria.Expresses pieces c ∧
      c.truth number row = op.verdict (x.value number row) (y.value number row) := by
  rw [binaryPieces_of_notNull notNull, if_pos nullable]
  cases rule : nullRule op with
  | bothNull =>
    refine ⟨_, _, rfl, Criteria.expresses_bothNull hl comparison hr, ?_⟩
    simp only [Criteria.Condition.truth]
    cases x.value number row <;> cases y.value number row <;>
      simp [BinaryOp.verdict, rule, LogicalOp.truth]
  | oneNull =>
    refine ⟨_, _, rfl, Criteria.expresses_oneNull hl comparison hr, ?_⟩
    simp only [Criteria.Condition.truth]
    cases x.value number row <;> cases y.value number row <;>
      simp [BinaryOp.verdict, rule, LogicalOp.truth]
  | never =>
    refine ⟨_, _, rfl, Criteria.expresses_compare hl comparison hr, ?_⟩
    simp only [Criteria.Condition.truth]
    cases x.value number row <;> cases y.value number row <;> simp [BinaryOp.verdict, rule]

/-- A comparison that does not spell out nulls is asked of values only, or satisfied by none. -/
theorem binaryPieces_of_valued (comparison : op.isComparison = true)
    (notNull : (left.isNullConstant || right.isNullConstant) = false)
    (plain : (op.isComparison && isNullableColumn left && isNullableColumn right) = false)
    (hl : Criteria.Spells l [.operand x]) (hr : Criteria.Spells r [.operand y])
    (valued : x.value number row ≠ none ∨ y.value number row ≠ none)
    (distinguished : op = .notEqual → x.value number row ≠ none ∧ y.value number row ≠ none) :
    ∃ pieces c, binaryPieces op left right (.ok l) (.ok r) = .ok pieces ∧
      Criteria.Expresses pieces c ∧
      (c.truth number row = some true ↔
        op.Accepts (x.value number row) (y.value number row)) := by
  rw [binaryPieces_of_notNull notNull, if_neg (by rw [plain]; exact Bool.false_ne_true)]
  refine ⟨_, _, rfl, Criteria.expresses_compare hl comparison hr, ?_⟩
  rw [truth_compare]
  cases rule : nullRule op with
  | bothNull =>
    rw [BinaryOp.accepts_bothNull rule]
    exact (or_iff_right fun both => valued.elim (· both.1) (· both.2)).symm
  | oneNull =>
    have different : op = .notEqual := by cases op <;> first | rfl | cases rule
    obtain ⟨leftValued, rightValued⟩ := distinguished different
    rw [BinaryOp.accepts_oneNull rule]
    refine (or_iff_right ?_).symm
    rintro (⟨none, -⟩ | ⟨-, none⟩)
    · exact leftValued none
    · exact rightValued none
  | never => rw [BinaryOp.accepts_never comparison rule]

theorem accepts_none_left {b : Option V} : op.Accepts none b ↔ op.Accepts b none := by
  cases op <;> cases b <;> simp [BinaryOp.Accepts]

theorem comparison_expressed {type : ValueType} (comparison : op.isComparison = true)
    (isLeft : left.IsOperand) (isRight : right.IsOperand)
    (paired : op = .notEqual → left.isNullConstant = true ∨ right.isNullConstant = true ∨
      isNullableColumn left = isNullableColumn right) (native : Bool)
    (valued : ∀ c ∈ left.comparedColumns ++ right.comparedColumns, c.type.admitsNull = false →
      (row c.owner c.name).isSome = true) :
    ∃ pieces c, (binary op left right type).pieces native .projected = .ok pieces ∧
      Criteria.Expresses pieces c ∧
      (c.truth number row = some true ↔
        op.Accepts (left.valueOn number row) (right.valueOn number row)) := by
  obtain ⟨l, writtenL, spellsL⟩ := isLeft.spelled native
  obtain ⟨r, writtenR, spellsR⟩ := isRight.spelled native
  rw [Expr.pieces, writtenL, writtenR, ← isLeft.value_operand, ← isRight.value_operand]
  cases null : left.isNullConstant || right.isNullConstant with
  | true =>
    cases rightNull : right.isNullConstant with
    | true =>
      obtain ⟨pieces, c, written, expresses, truth⟩ :=
        binaryPieces_of_null number row comparison null (by rw [rightNull]; exact spellsL)
      refine ⟨pieces, c, written, expresses, ?_⟩
      rw [isRight.value_operand, valueOn_of_null rightNull, truth, Option.some_inj,
        BinaryOp.nullTest_iff comparison]
    | false =>
      obtain ⟨pieces, c, written, expresses, truth⟩ :=
        binaryPieces_of_null number row comparison null (by rw [rightNull]; exact spellsR)
      rw [rightNull, Bool.or_false] at null
      refine ⟨pieces, c, written, expresses, ?_⟩
      rw [isLeft.value_operand, valueOn_of_null null, accepts_none_left, truth, Option.some_inj,
        BinaryOp.nullTest_iff comparison]
  | false =>
    cases nullable : op.isComparison && isNullableColumn left && isNullableColumn right with
    | true =>
      obtain ⟨pieces, c, written, expresses, truth⟩ :=
        binaryPieces_of_nullable number row comparison null nullable spellsL spellsR
      exact ⟨pieces, c, written, expresses, by rw [truth, BinaryOp.verdict_iff comparison]⟩
    | false =>
      obtain ⟨leftNotNull, rightNotNull⟩ := Bool.or_eq_false_iff.mp null
      have leftValued (h : isNullableColumn left = false) : left.operand.value number row ≠ none := by
        obtain ⟨v, found⟩ := isLeft.exists_valueOn number leftNotNull h
          fun c hc => valued c (List.mem_append_left _ hc)
        rw [isLeft.value_operand, found]
        exact Option.some_ne_none v
      have rightValued (h : isNullableColumn right = false) :
          right.operand.value number row ≠ none := by
        obtain ⟨v, found⟩ := isRight.exists_valueOn number rightNotNull h
          fun c hc => valued c (List.mem_append_right _ hc)
        rw [isRight.value_operand, found]
        exact Option.some_ne_none v
      refine binaryPieces_of_valued comparison null nullable spellsL spellsR ?_ fun different => ?_
      · rw [comparison, Bool.true_and, Bool.and_eq_false_iff] at nullable
        exact nullable.imp leftValued rightValued
      · have same : isNullableColumn left = isNullableColumn right := by
          simpa [leftNotNull, rightNotNull] using paired different
        rw [comparison, Bool.true_and, same, Bool.and_self] at nullable
        exact ⟨leftValued (same ▸ nullable), rightValued nullable⟩

theorem IsCriterion.isPredicate (h : e.IsCriterion) : e.isPredicate = true := by
  cases h with
  | comparison comparison => exact comparison
  | logical => rfl

theorem IsCriterion.expressed (number : Int → V) (h : e.IsCriterion) (native : Bool)
    (valued : ∀ c ∈ e.comparedColumns, c.type.admitsNull = false →
      (row c.owner c.name).isSome = true) :
    ∃ pieces c, e.pieces native .projected = .ok pieces ∧ Criteria.Expresses pieces c ∧
      (c.truth number row = some true ↔ e.HoldsOn number row) := by
  induction h with
  | comparison comparison isLeft isRight paired =>
    rw [comparedColumns] at valued
    rw [HoldsOn]
    exact comparison_expressed comparison isLeft isRight paired native valued
  | @logical op left right isLeft isRight ihLeft ihRight =>
    rw [comparedColumns] at valued
    obtain ⟨l, c, writtenL, expressesL, truthL⟩ :=
      ihLeft fun c hc => valued c (List.mem_append_left _ hc)
    obtain ⟨r, d, writtenR, expressesR, truthR⟩ :=
      ihRight fun c hc => valued c (List.mem_append_right _ hc)
    refine ⟨_, _, ?_, expressesL.logical op expressesR, ?_⟩
    · rw [Expr.pieces, predicatePieces, predicatePieces, isLeft.isPredicate, isRight.isPredicate,
        writtenL, writtenR]
      rfl
    · rw [Criteria.Condition.truth]
      cases op with
      | and => rw [LogicalOp.truth_and, HoldsOn, truthL, truthR]
      | or => rw [Criteria.truth_or, HoldsOn, truthL, truthR]

/-- The text of a condition of comparisons is true, under three truth values, on exactly the rows on
which the condition holds under two. -/
theorem condition_text_true_iff (number : Int → V) (row : String → String → Option V)
    (native : Bool) (h : e.IsCriterion)
    (valued : ∀ c ∈ e.comparedColumns, c.type.admitsNull = false →
      (row c.owner c.name).isSome = true) :
    ∃ pieces c, predicatePieces native e (e.pieces native .projected) = .ok pieces ∧
      Criteria.reading (ofPieces .sqlServer pieces).text = some c ∧
      (c.truth number row = some true ↔ e.HoldsOn number row) := by
  obtain ⟨pieces, c, written, expresses, truth⟩ := h.expressed number native valued
  refine ⟨pieces, c, ?_, expresses.reading, truth⟩
  rw [predicatePieces, h.isPredicate, written]
  rfl

end Truth

/-- Cooks under the same manager, but for one of them, and all cooks whose manager is known. -/
def sameManager : Expr :=
  let manager (tableAlias : String) : Expr :=
    .column ⟨.nullable .int32, tableAlias, "ManagerID", false⟩
  .logical .or
    (.logical .and (.equal (manager "t0") (manager "t1"))
      (.binaryOf .notEqual (.column ⟨.int32, "t0", "ID", true⟩) (.int (-3))))
    (.binaryOf .notEqual (manager "t1") (.constant .null (.nullable .int32)))

/-- A cook with a number and without a manager. -/
def managerless (owner name : String) : Option Int :=
  if owner = "t0" ∧ name = "ID" then some 7 else none

theorem sameManager_read :
    ∃ pieces c, predicatePieces false sameManager (sameManager.pieces false .projected) = .ok pieces ∧
      (ofPieces .sqlServer pieces).text =
        "(((([t0].[ManagerID] IS NULL AND [t1].[ManagerID] IS NULL) OR " ++
        "[t0].[ManagerID] = [t1].[ManagerID]) AND ([t0].[ID] <> -3)) OR " ++
        "([t1].[ManagerID] IS NOT NULL))" ∧
      Criteria.reading (ofPieces .sqlServer pieces).text = some c ∧
      c.truth id managerless = some true := by
  have criterion : sameManager.IsCriterion := by
    refine .logical .or (.logical .and ?_ ?_) ?_
    · exact .comparison rfl (.column _) (.column _) nofun
    · exact .comparison rfl (.column _) (.number _) fun _ => .inr (.inr rfl)
    · exact .comparison rfl (.column _) (.nullConstant _) fun _ => .inr (.inl rfl)
  have valued : ∀ c ∈ sameManager.comparedColumns, c.type.admitsNull = false →
      (managerless c.owner c.name).isSome = true := by decide
  have text : (predicatePieces false sameManager
      (sameManager.pieces false .projected)).toOption.any (fun pieces =>
        (ofPieces .sqlServer pieces).text =
          "(((([t0].[ManagerID] IS NULL AND [t1].[ManagerID] IS NULL) OR " ++
          "[t0].[ManagerID] = [t1].[ManagerID]) AND ([t0].[ID] <> -3)) OR " ++
          "([t1].[ManagerID] IS NOT NULL))") = true := by
    decide +kernel
  obtain ⟨pieces, c, written, read, truth⟩ :=
    condition_text_true_iff id managerless false criterion valued
  rw [written] at text
  refine ⟨pieces, c, written, of_decide_eq_true text, read, truth.mpr (.inl ⟨trivial, ?_⟩)⟩
  change (7 : Int) ≠ -3
  decide

end Expr

end Sql

end Comprehension
