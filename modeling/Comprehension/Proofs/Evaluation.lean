import Comprehension.Proofs.Construction
import Comprehension.Prepared.Operators
import Mathlib.Data.List.Sort

/-!
What prepared statements select. A row gives every table in sight an item, under the key of the
table. A statement takes the rows of its tables, keeps those that fulfil its condition, projects and
numbers them, drops repetitions, sorts what is left and takes the first of it. A statement in the
place of a table keeps the order of its rows.
-/
namespace Comprehension.Sql

open Query (Direction)

/-- What is selected: a value, or a record of named parts. -/
inductive Datum where
  | value (v : Value)
  | record (fields : List (String × Datum))

namespace Datum

mutual

def decEq : (d e : Datum) → Decidable (d = e)
  | value v, value w => decidable_of_iff (v = w) (by simp)
  | record fields, record fields' =>
    have := decEqFields fields fields'
    decidable_of_iff (fields = fields') (by simp)
  | value _, record _ => .isFalse nofun
  | record _, value _ => .isFalse nofun

def decEqFields : (fields fields' : List (String × Datum)) → Decidable (fields = fields')
  | [], [] => .isTrue rfl
  | (name, d) :: rest, (name', d') :: rest' =>
    have := decEq d d'
    have := decEqFields rest rest'
    decidable_of_iff (name = name' ∧ d = d' ∧ rest = rest') (by simp [and_assoc])
  | [], _ :: _ => .isFalse nofun
  | _ :: _, [] => .isFalse nofun

end

instance : DecidableEq Datum := decEq

def int (n : Int) : Datum := value (.int n)

def null : Datum := value .null

/-- Whether a condition holds; null is neither true nor false. -/
def truth : Datum → Option Bool
  | value (.bool b) => some b
  | _ => none

def ofTruth : Option Bool → Datum
  | some b => value (.bool b)
  | none => null

@[simp] theorem truth_ofTruth (b : Option Bool) : (ofTruth b).truth = b := by
  cases b <;> rfl

/-- Only rows on which a condition is true are kept. -/
def isTrue (d : Datum) : Bool := d.truth = some true

@[simp] theorem isTrue_bool (b : Bool) : (value (.bool b)).isTrue = b := by
  cases b <;> rfl

end Datum

/-- Connectives of three truth values. -/
def LogicalOp.truth : LogicalOp → Option Bool → Option Bool → Option Bool
  | and, some true, b | and, b, some true => b
  | and, some false, _ | and, _, some false => some false
  | or, some false, b | or, b, some false => b
  | or, some true, _ | or, _, some true => some true
  | _, none, none => none

theorem LogicalOp.truth_and (a b : Option Bool) :
    LogicalOp.truth .and a b = some true ↔ a = some true ∧ b = some true := by
  match a, b with
  | some true, some true | some true, some false | some false, some true | some false, some false
  | none, some true | none, some false | some true, none | some false, none | none, none =>
    simp [truth]

/-- What a database computes with. -/
inductive Operation where
  | binary (op : BinaryOp)
  | like
  | likeEscape
  | function (name : String)
  | convert (target : String)
  | member (name : String)
  | aggregate (function : Aggregate)
  /-- All rows of a statement as one operand. -/
  | rows

/-- A database: its tables, in an order that they are read in, and its functions. -/
structure Interpretation where
  /-- The rows of the table of an item type. -/
  table : String → List Datum
  apply : Operation → List Datum → Datum
  /-- What stands for itself: a text of the dialect, or a node of a statement that is mapped. -/
  leaf : Expr → Datum
  /-- The order of data that are not both integers. -/
  le : Datum → Datum → Bool

/-- The item of each table in sight, by the key of the table. -/
abbrev Items := Nat → Datum

/-- What a row is sorted by. -/
abbrev Keys := List (Direction × Datum)

namespace Interpretation

variable (I : Interpretation)

def binary (op : BinaryOp) : Datum → Datum → Datum
  | .value (.int a), .value (.int b) =>
    match op with
    | .equal => .value (.bool (a = b))
    | .notEqual => .value (.bool (a ≠ b))
    | .lessThan => .value (.bool (a < b))
    | .lessThanOrEqual => .value (.bool (a ≤ b))
    | .greaterThan => .value (.bool (b < a))
    | .greaterThanOrEqual => .value (.bool (b ≤ a))
    | .add => .int (a + b)
    | .subtract => .int (a - b)
    | .multiply => .int (a * b)
    | op => I.apply (.binary op) [.int a, .int b]
  | d, e => I.apply (.binary op) [d, e]

/-- The part of a record, or what the database holds under a member. -/
def member (name : String) : Datum → Datum
  | .record fields => (fields.lookup name).getD (I.apply (.member name) [.record fields])
  | d => I.apply (.member name) [d]

/-- A count is the number of all rows. -/
def aggregate (function : Aggregate) (data : List Datum) : Datum :=
  if function = .count then .int data.length else I.apply (.aggregate function) data

/-- A statement as an operand: its only value, if it yields one, or else all its rows. -/
def operand (shape : Shape) (data : List Datum) : Datum :=
  if shape.isSequence then I.apply .rows data else data.headD .null

def dataLe : Datum → Datum → Bool
  | .value (.int a), .value (.int b) => a ≤ b
  | d, e => I.le d e

/-- Rows are sorted by the first key on which they differ. -/
def keysLe : Keys → Keys → Bool
  | (direction, d) :: rest, (_, e) :: rest' =>
    if d = e then keysLe rest rest'
    else match direction with
      | .asc => I.dataLe d e
      | .desc => I.dataLe e d
  | _, _ => true

/-- The place of each row, from one on, if the rows are sorted and equal ones keep their order. -/
def ranks (keys : List Keys) : List Nat :=
  keys.mapIdx fun i key =>
    (keys.take i).countP (I.keysLe · key) + (keys.drop (i + 1)).countP (!I.keysLe key ·) + 1

/-- Drops repetitions, then sorts. -/
def sorted (isDistinct : Bool) (rows : List (Keys × Datum)) : List Datum :=
  let kept := if isDistinct then rows.eraseDupsBy fun a b => a.2 == b.2 else rows
  (kept.insertionSort fun a b => I.keysLe a.1 b.1).map Prod.snd

end Interpretation

/-- The first rows, if their number is given. -/
def limited (top : Option Datum) (data : List Datum) : List Datum :=
  match top with
  | some (.value (.int n)) => data.take n.toNat
  | _ => data

/-- The rows that are projected one by one: of each group the first. -/
def leaders (key : Option (Items → Datum)) (rows : List Items) : List Items :=
  match key with
  | none => rows
  | some key => rows.eraseDupsBy fun row row' => key row == key row'

/-- The rows that an aggregate sees together. -/
def groups (key : Option (Items → Datum)) (rows : List Items) : List (List Items) :=
  match key with
  | none => [rows]
  | some key => (rows.map key).eraseDups.map fun d => rows.filter (key · = d)

def Literal.value : Literal → Value
  | int n => .int n
  | string s => .string s
  | null => .null

mutual

/-- The value of an expression on one row. -/
def Expr.value (I : Interpretation) : Expr → Items → Datum
  | .constant v _, _ => .value v
  | .literal l, _ => .value l.value
  | .binary op left right _, items => I.binary op (left.value I items) (right.value I items)
  | .like e pattern, items => I.apply .like [e.value I items, pattern.value I items]
  | .likeEscape e, items => I.apply .likeEscape [e.value I items]
  | .logical op left right, items =>
    .ofTruth (op.truth (left.value I items).truth (right.value I items).truth)
  | .not e, items => .ofTruth ((e.value I items).truth.map Bool.not)
  | .case branches otherwise _, items =>
    (branchValue I branches items).getD (((clauseValue I otherwise).map (· items)).getD .null)
  | .function name args _ _, items => I.apply (.function name) (argumentValues I args items)
  | .convert target e _, items => I.apply (.convert target) [e.value I items]
  | .named ⟨_, e⟩, items => e.value I items
  | .compound members, items => .record (memberValues I members items)
  | .subStatement s, items => I.operand s.shape (s.rows I items)
  | .tableReference key _, items => items key
  | .member source name _, items => I.member name (source.value I items)
  | e, _ => I.leaf e

def clauseValue (I : Interpretation) : Option Expr → Option (Items → Datum)
  | none => none
  | some e => some (e.value I)

def argumentValues (I : Interpretation) : List Expr → Items → List Datum
  | [], _ => []
  | e :: rest, items => e.value I items :: argumentValues I rest items

def memberValues (I : Interpretation) : List Named → Items → List (String × Datum)
  | [], _ => []
  | ⟨name, e⟩ :: rest, items =>
    (name.getD Named.defaultName, e.value I items) :: memberValues I rest items

/-- The value behind the first test that is true. -/
def branchValue (I : Interpretation) : List (Expr × Expr) → Items → Option Datum
  | [], _ => none
  | (test, e) :: rest, items =>
    if (test.value I items).isTrue then some (e.value I items) else branchValue I rest items

def orderingKeys (I : Interpretation) : List Ordering → Items → Keys
  | [], _ => []
  | ⟨e, direction⟩ :: rest, items => (direction, e.value I items) :: orderingKeys I rest items

/-- The records of all rows; a row number depends on the other rows. -/
def recordRows (I : Interpretation) : List Named → List Items → List (List (String × Datum))
  | [], rows => rows.map fun _ => []
  | ⟨name, .rowNumber orderings⟩ :: rest, rows =>
    List.zipWith (fun (rank : Nat) fields => (name.getD Named.defaultName, .int rank) :: fields)
      (I.ranks (rows.map (orderingKeys I orderings))) (recordRows I rest rows)
  | ⟨name, e⟩ :: rest, rows =>
    List.zipWith (fun row fields => (name.getD Named.defaultName, e.value I row) :: fields) rows
      (recordRows I rest rows)

/-- What a projection makes of rows: one value of all of them, records, or values one by one, which
are given with the keys of the rows. -/
def Expr.project (I : Interpretation) :
    Expr → List Items → List (List Items) → List (Keys × Datum) → List (Keys × Datum)
  | .named ⟨_, e⟩, rows, groups, values => e.project I rows groups values
  | .aggregation function e _, _, groups, _ =>
    groups.map fun group => ([], I.aggregate function (group.map (e.value I)))
  | .compound members, rows, _, values =>
    List.zipWith (fun value fields => (value.1, .record fields)) values (recordRows I members rows)
  | _, _, _, values => values

def Source.rows (I : Interpretation) : Source → Items → List Datum
  | .unresolved itemType, _ | .table itemType _ _, _ => I.table itemType
  | .statement _ s, items => s.rows I items

/-- Every combination of rows, the first table varying slowest. A source sees the items of the
tables before it. -/
def tableRows (I : Interpretation) : List Table → Items → List Items
  | [], items => [items]
  | ⟨key, source, _, _⟩ :: rest, items =>
    (source.rows I items).flatMap fun d => tableRows I rest (Function.update items key d)

/-- The rows that a statement selects. -/
def Statement.rows (I : Interpretation) : Statement → Items → List Datum
  | ⟨projection, tables, condition, grouping, orderings, top, isDistinct, _, _, _⟩, items =>
    let admitted := (tableRows I tables items).filter fun row =>
      (clauseValue I condition).all fun holds => (holds row).isTrue
    let rows := leaders (clauseValue I grouping) admitted
    let values := rows.map fun row => (orderingKeys I orderings row, projection.value I row)
    limited ((clauseValue I top).map (· items)) (I.sorted isDistinct
      (projection.project I rows (groups (clauseValue I grouping) admitted) values))

end

section Lemmas

variable {I : Interpretation} {items : Items} {s : Statement}

/-- The rows that fulfil the condition of a statement. -/
def Statement.admitted (I : Interpretation) (s : Statement) (items : Items) : List Items :=
  (tableRows I s.tables items).filter fun row =>
    (clauseValue I s.condition).all fun holds => (holds row).isTrue

theorem Statement.rows_of_ungrouped (h : s.grouping = none) :
    s.rows I items = limited ((clauseValue I s.top).map (· items)) (I.sorted s.isDistinct
      (s.projection.project I (s.admitted I items) [s.admitted I items]
        ((s.admitted I items).map fun row =>
          (orderingKeys I s.orderings row, s.projection.value I row)))) := by
  cases s
  subst h
  rfl

/-- A source that is the only one gives the rows. -/
theorem tableRows_ofSource (key : Nat) (source : Source) (kind : JoinKind) :
    tableRows I [.ofSource key source kind] items =
      (source.rows I items).map (Function.update items key) := by
  rw [List.map_eq_flatMap]
  rfl

theorem Expr.isTrue_and (left right : Expr) :
    ((Expr.and left right).value I items).isTrue =
      ((left.value I items).isTrue && (right.value I items).isTrue) := by
  change decide ((Datum.ofTruth (LogicalOp.truth .and (left.value I items).truth
    (right.value I items).truth)).truth = some true) = _
  rw [Datum.truth_ofTruth, Bool.eq_iff_iff, decide_eq_true_iff, LogicalOp.truth_and]
  simp [Datum.isTrue]

theorem Expr.value_withColumnName (e : Expr) : e.withColumnName.value I = e.value I := by
  cases e <;> rfl

theorem Expr.project_withColumnName (e : Expr) : e.withColumnName.project I = e.project I := by
  cases e <;> rfl

/-- What has a value on each row, and is no record, is selected row by row. -/
theorem Expr.project_of_scalar {e : Expr} (rowwise : e.kind.isRowwise = true)
    (single : e.kind ≠ .compound) (rows : List Items) (groups : List (List Items))
    (values : List (Keys × Datum)) : e.project I rows groups values = values := by
  cases e with
  | compound => exact absurd rfl single
  | named | aggregation => cases rowwise
  | _ => rfl

theorem recordRows_cons {e : Expr} (rowwise : e.kind.isRowwise = true) (name : Option String)
    (rest : List Named) (rows : List Items) :
    recordRows I (⟨name, e⟩ :: rest) rows =
      List.zipWith (fun row fields => (name.getD Named.defaultName, e.value I row) :: fields) rows
        (recordRows I rest rows) := by
  cases e with
  | rowNumber => cases rowwise
  | _ => rfl

theorem Interpretation.keysLe_self (keys : Keys) : I.keysLe keys keys = true := by
  induction keys with
  | nil => rfl
  | cons key rest ih =>
    obtain ⟨direction, d⟩ := key
    simp [keysLe, ih]

theorem Interpretation.keysLe_int (a b : Int) :
    I.keysLe [(.asc, .int a)] [(.asc, .int b)] = decide (a ≤ b) := by
  by_cases same : a = b
  · rw [same, keysLe_self, decide_eq_true (le_refl b)]
  · have other : Datum.int a ≠ .int b := by simpa [Datum.int] using same
    simp only [keysLe, if_neg other]
    rfl

/-- Rows with the same keys are numbered as they come. -/
theorem Interpretation.ranks_const (rows : List Items) (keys : Keys) :
    I.ranks (rows.map fun _ => keys) = (List.range rows.length).map (· + 1) := by
  apply List.ext_getElem
  · simp [ranks]
  · intro i hi hi'
    have bound : i < rows.length := by simpa [ranks] using hi
    simp only [ranks, List.getElem_mapIdx, List.getElem_map, List.getElem_range]
    rw [List.countP_eq_length.mpr, List.countP_eq_zero.mpr, List.length_take, List.length_map]
    · omega
    · intro other mem
      obtain ⟨row, -, rfl⟩ := List.mem_map.mp (List.mem_of_mem_drop mem)
      simp [keysLe_self]
    · intro other mem
      obtain ⟨row, -, rfl⟩ := List.mem_map.mp (List.mem_of_mem_take mem)
      exact keysLe_self keys

/-- Rows that are in order already are not moved. -/
theorem Interpretation.sorted_of_pairwise {rows : List (Keys × Datum)}
    (h : rows.Pairwise fun a b => I.keysLe a.1 b.1 = true) : I.sorted false rows = rows.map Prod.snd :=
  congrArg (List.map Prod.snd) h.insertionSort_eq

/-- Repetitions are told by what a function makes of the rows. -/
theorem eraseDupsBy_map {α β : Type} (f : α → β) (r : β → β → Bool) (xs : List α) :
    (xs.map f).eraseDupsBy r = (xs.eraseDupsBy fun a b => r (f a) (f b)).map f := by
  induction length : xs.length using Nat.strong_induction_on generalizing xs with
  | h n ih =>
    cases xs with
    | nil => rfl
    | cons x xs =>
      have shorter : (xs.filter fun a => decide (r (f a) (f x) = false)).length < n := by
        have := xs.length_filter_le fun a => decide (r (f a) (f x) = false)
        rw [List.length_cons] at length
        omega
      rw [List.map_cons, List.eraseDupsBy_cons, List.eraseDupsBy_cons, List.map_cons,
        List.filter_map, ← ih _ shorter _ rfl]
      rfl

/-- Without an order, what is selected is left as it stands. -/
theorem Interpretation.sorted_of_unordered (isDistinct : Bool) (data : List Datum) :
    I.sorted isDistinct (data.map (([] : Keys), ·)) =
      if isDistinct then data.eraseDups else data := by
  have unmoved (data : List Datum) : I.sorted false (data.map (([] : Keys), ·)) = data := by
    rw [sorted_of_pairwise (List.pairwise_map.mpr (List.pairwise_of_forall fun _ _ => rfl)),
      List.map_map]
    exact List.map_id data
  cases isDistinct with
  | false => exact unmoved data
  | true =>
    have kept := eraseDupsBy_map (fun d : Datum => (([] : Keys), d)) (fun a b => a.2 == b.2) data
    calc I.sorted true (data.map (([] : Keys), ·))
        = I.sorted false ((data.map (([] : Keys), ·)).eraseDupsBy fun a b => a.2 == b.2) := rfl
      _ = I.sorted false (data.eraseDups.map (([] : Keys), ·)) := congrArg (I.sorted false) kept
      _ = data.eraseDups := unmoved data.eraseDups

end Lemmas

end Comprehension.Sql
