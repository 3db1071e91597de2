import Comprehension.Proofs.Evaluation
import Comprehension.Proofs.Preparation

/-!
Result operators and the rows of a statement. Taking, skipping and dropping repetitions fold into
the clauses of a statement, or put it into another one; either way the rows become those that the
operator makes of the rows before. Between two operators a statement is plain, or it is a page: a
range of the rows of a source that numbers them.
-/
namespace Comprehension.Sql

/-- A row with its number, which starts at one. -/
def numberedRow (d : Datum) (index : Nat) : Datum :=
  .record [(Named.defaultName, d), (Statement.rowNumberName, .int (index + 1 : Nat))]

def numberedRows (data : List Datum) : List Datum :=
  data.zipIdx.map fun entry => numberedRow entry.1 entry.2

theorem eraseDups_eraseDups {α : Type} [BEq α] [LawfulBEq α] (xs : List α) :
    xs.eraseDups.eraseDups = xs.eraseDups := by
  induction length : xs.length using Nat.strong_induction_on generalizing xs with
  | h n ih =>
    cases xs with
    | nil => rfl
    | cons x xs =>
      have shorter : (xs.filter fun y => !y == x).length < n := by
        have := xs.length_filter_le fun y => !y == x
        rw [List.length_cons] at length
        omega
      have others : (xs.filter fun y => !y == x).eraseDups.filter (fun y => !y == x) =
          (xs.filter fun y => !y == x).eraseDups :=
        List.filter_eq_self.mpr fun y hy => (List.mem_filter.mp (List.mem_eraseDups.mp hy)).2
      rw [List.eraseDups_cons, List.eraseDups_cons, others, ih _ shorter _ rfl]

namespace Statement

variable {I : Interpretation} {items : Items} {s t : Statement} {data : List Datum} {f : Fresh}

theorem checked_of_boolean (h : ∀ c ∈ s.condition, c.type.isBoolean = true) : s.checked = .ok s := by
  unfold checked
  split
  · rfl
  · rename_i c found
    rw [if_pos (h c found)]

/-- A statement that selects scalars row by row, in the order of its tables. -/
structure Plain (s : Statement) : Prop where
  rowwise : s.projection.kind.isRowwise = true
  single : s.projection.kind ≠ .compound
  boolean : ∀ c ∈ s.condition, c.type.isBoolean = true
  ungrouped : s.grouping = none
  unordered : s.orderings = []
  unpaged : s.rowNumber = none
  sequence : s.shape.isSequence = true

namespace Plain

theorem rows_eq (h : s.Plain) :
    s.rows I items = limited ((clauseValue I s.top).map (· items))
      (if s.isDistinct then ((s.admitted I items).map (s.projection.value I)).eraseDups
        else (s.admitted I items).map (s.projection.value I)) := by
  rw [rows_of_ungrouped h.ungrouped, Expr.project_of_scalar h.rowwise h.single, h.unordered,
    ← Interpretation.sorted_of_unordered (I := I), List.map_map]
  rfl

theorem rows_unlimited (h : s.Plain) (top : s.top = none) (repeats : s.isDistinct = false) :
    s.rows I items = (s.admitted I items).map (s.projection.value I) := by
  rw [h.rows_eq, top, repeats]
  rfl

theorem rows_asSource (h : s.Plain) : s.asSource.rows I items = s.rows I items := by
  have unordered : s.asSource.orderings = s.orderings := by
    rw [asSource, h.unordered, ite_self]
  rw [rows_of_ungrouped (s := s.asSource) h.ungrouped, rows_of_ungrouped h.ungrouped, unordered]
  simp only [asSource, Expr.value_withColumnName, Expr.project_withColumnName]
  rfl

theorem take (h : s.Plain) (count : Expr) : { s with top := some count }.Plain :=
  ⟨h.rowwise, h.single, h.boolean, h.ungrouped, h.unordered, h.unpaged, h.sequence⟩

/-- The first rows of a statement that takes none yet. -/
theorem rows_take (h : s.Plain) (top : s.top = none) (n : Nat) (type : ValueType) :
    { s with top := some (.constant (.int n) type) }.rows I items = (s.rows I items).take n := by
  rw [(h.take _).rows_eq, h.rows_eq, top]
  rfl

theorem distinct (h : s.Plain) : { s with isDistinct := true }.Plain :=
  ⟨h.rowwise, h.single, h.boolean, h.ungrouped, h.unordered, h.unpaged, h.sequence⟩

/-- Repetitions are dropped as long as no first rows are taken. -/
theorem rows_distinct (h : s.Plain) (top : s.top = none) :
    { s with isDistinct := true }.rows I items = (s.rows I items).eraseDups := by
  rw [h.distinct.rows_eq, h.rows_eq, top]
  cases s.isDistinct with
  | false => rfl
  | true => exact (eraseDups_eraseDups _).symm

theorem rows_count (h : s.Plain) (top : s.top = none) (repeats : s.isDistinct = false)
    (type : ValueType) :
    { s with projection := .aggregation .count s.projection type, orderings := [],
             shape := .scalar type }.rows I items = [.int (s.rows I items).length] := by
  have ungrouped : { s with
      projection := .aggregation .count s.projection type, orderings := [],
      shape := .scalar type }.grouping = none := h.ungrouped
  rw [rows_of_ungrouped ungrouped, h.rows_unlimited top repeats]
  change limited ((clauseValue I s.top).map (· items)) (I.sorted s.isDistinct
    [([], I.aggregate .count ((s.admitted I items).map (s.projection.value I)))]) = _
  rw [top, repeats]
  rfl

/-- Without an order, rows are numbered as they come. -/
theorem rows_numbered (h : s.Plain) (top : s.top = none) (repeats : s.isDistinct = false) :
    s.numbered.rows I items = numberedRows (s.rows I items) := by
  have numbering : s.numbering = [⟨.int 1, .asc⟩] := by
    rw [Statement.numbering, h.unordered]
    rfl
  have records : recordRows I [⟨some Named.defaultName, s.projection⟩,
      ⟨some rowNumberName, .rowNumber s.numbering⟩] (s.admitted I items) =
      (s.admitted I items).zipIdx.map fun entry =>
        [(Named.defaultName, s.projection.value I entry.1),
          (rowNumberName, .int (entry.2 + 1 : Nat))] := by
    have ranks : I.ranks ((s.admitted I items).map (orderingKeys I s.numbering)) =
        (List.range (s.admitted I items).length).map (· + 1) := by
      rw [numbering]
      exact Interpretation.ranks_const _ [(.asc, .value (.int 1))]
    rw [recordRows_cons h.rowwise, recordRows, ranks, recordRows]
    apply List.ext_getElem
    · simp
    · intro i hi hi'
      simp
  have pairs (value : Items → Datum) : List.zipWith
      (fun (pair : Keys × Datum) fields => (pair.1, Datum.record fields))
      ((s.admitted I items).map fun row => ([], value row))
      ((s.admitted I items).zipIdx.map fun entry =>
        [(Named.defaultName, s.projection.value I entry.1),
          (rowNumberName, .int (entry.2 + 1 : Nat))]) =
      (numberedRows ((s.admitted I items).map (s.projection.value I))).map (([] : Keys), ·) := by
    apply List.ext_getElem
    · simp [numberedRows]
    · intro i hi hi'
      simp [numberedRows, numberedRow]
  rw [h.rows_unlimited top repeats, rows_of_ungrouped (s := s.numbered) h.ungrouped]
  change limited ((clauseValue I s.top).map (· items)) (I.sorted s.isDistinct
    (List.zipWith _ ((s.admitted I items).map fun row => ([], s.numbered.projection.value I row))
      (recordRows I _ (s.admitted I items)))) = _
  rw [top, repeats, records, pairs, Interpretation.sorted_of_unordered]
  rfl

end Plain

/-- The statement that selects all rows of a source. -/
def around (key : Nat) (tableAlias : String) (inner : Statement) : Statement :=
  { projection := .tableReference key inner.projection.type
    tables := [.ofSource key (.statement tableAlias inner) .inner]
    condition := none
    grouping := none
    orderings := []
    top := none
    isDistinct := false
    rowNumber := none
    rowOffset := none
    shape := .sequence inner.projection.type }

theorem plain_around (key : Nat) (tableAlias : String) (inner : Statement) :
    (around key tableAlias inner).Plain :=
  ⟨rfl, nofun, nofun, rfl, rfl, rfl, rfl⟩

theorem rows_around (key : Nat) (tableAlias : String) (inner : Statement) :
    (around key tableAlias inner).rows I items = inner.rows I items := by
  have admitted : (around key tableAlias inner).admitted I items =
      (inner.rows I items).map (Function.update items key) :=
    (List.filter_eq_self.mpr fun _ _ => rfl).trans (tableRows_ofSource key _ .inner)
  have own (d : Datum) :
      (around key tableAlias inner).projection.value I (Function.update items key d) = d := by
    change Function.update items key d key = d
    rw [Function.update_self]
  rw [(plain_around key tableAlias inner).rows_unlimited rfl rfl, admitted, List.map_map]
  exact (List.map_congr_left fun d _ => own d).trans (List.map_id _)

theorem nested_of_boolean (h : ∀ c ∈ s.condition, c.type.isBoolean = true) (f : Fresh) :
    s.nested f = .ok ((around f.key.1 (f.key.2.named "q").1 s.asSource,
      .tableReference f.key.1 s.asSource.projection.type), (f.key.2.named "q").2) := by
  unfold nested
  rw [checked_of_boolean h]
  rfl

/-- The item of a row in a source that numbers its rows. -/
def itemOf (key : Nat) (rowType type : ValueType) : Expr :=
  .member (.tableReference key rowType) Named.defaultName type

/-- The number of a row in a source that numbers its rows. -/
def numberOf (key : Nat) (rowType : ValueType) : Expr :=
  .member (.tableReference key rowType) rowNumberName .int64

/-- The statement that selects of a source with numbered rows those that fulfil a condition. -/
def page (key : Nat) (tableAlias : String) (inner : Statement) (rowType type : ValueType)
    (offset condition : Expr) : Statement :=
  { projection := itemOf key rowType type
    tables := [.ofSource key (.statement tableAlias inner) .inner]
    condition := some condition
    grouping := none
    orderings := [⟨numberOf key rowType, .asc⟩]
    top := none
    isDistinct := false
    rowNumber := some (numberOf key rowType)
    rowOffset := some offset
    shape := .sequence type }

/-- The items in sight on a row of a source that numbers its rows. -/
def pageRow (items : Items) (key : Nat) (entry : Datum × Nat) : Items :=
  Function.update items key (numberedRow entry.1 entry.2)

def inRange (offset bound : Nat) (entry : Datum × Nat) : Bool := offset ≤ entry.2 ∧ entry.2 < bound

/-- A page that is a range of rows. -/
inductive Paged (I : Interpretation) (items : Items) (data : List Datum) (offset bound : Nat) :
    Statement → Prop where
  | intro {key : Nat} {tableAlias : String} {inner : Statement} {rowType type countType : ValueType}
      {c : Expr} (source : inner.rows I items = numberedRows data)
      (boolean : c.type.isBoolean = true)
      (range : ∀ entry ∈ data.zipIdx,
        (c.value I (pageRow items key entry)).isTrue = inRange offset bound entry) :
      Paged I items data offset bound
        (page key tableAlias inner rowType type (.constant (.int offset) countType) c)

/-- The entries of a list in a range of places. -/
theorem map_filter_zipIdx {α : Type} (xs : List α) (offset bound start : Nat) :
    ((xs.zipIdx start).filter fun entry => decide (offset ≤ entry.2 ∧ entry.2 < bound)).map Prod.fst =
      (xs.take (bound - start)).drop (offset - start) := by
  induction xs generalizing start with
  | nil => simp
  | cons x xs ih =>
    rw [List.zipIdx_cons, List.filter_cons]
    by_cases ended : bound ≤ start
    · rw [if_neg (by simp; omega), ih, Nat.sub_eq_zero_of_le ended,
        Nat.sub_eq_zero_of_le (Nat.le_succ_of_le ended)]
      simp
    · obtain ⟨more, rest⟩ : ∃ more, bound - start = more + 1 := ⟨bound - start - 1, by omega⟩
      have rest' : bound - (start + 1) = more := by omega
      rw [rest, List.take_succ_cons]
      by_cases before : start < offset
      · obtain ⟨skipped, left⟩ : ∃ skipped, offset - start = skipped + 1 :=
          ⟨offset - start - 1, by omega⟩
        have left' : offset - (start + 1) = skipped := by omega
        rw [if_neg (by simp; omega), ih, rest', left, left', List.drop_succ_cons]
      · have left : offset - start = 0 := by omega
        have left' : offset - (start + 1) = 0 := by omega
        rw [if_pos (by simp; omega), List.map_cons, ih, rest', left, left']
        rfl

namespace Paged

variable {offset bound : Nat}

theorem value_itemOf (key : Nat) (rowType type : ValueType) (entry : Datum × Nat) :
    (itemOf key rowType type).value I (pageRow items key entry) = entry.1 := by
  change I.member Named.defaultName (pageRow items key entry key) = _
  rw [pageRow, Function.update_self]
  simp [Interpretation.member, numberedRow]

theorem value_numberOf (key : Nat) (rowType : ValueType) (entry : Datum × Nat) :
    (numberOf key rowType).value I (pageRow items key entry) = .int (entry.2 + 1 : Nat) := by
  change I.member rowNumberName (pageRow items key entry key) = _
  rw [pageRow, Function.update_self]
  simp [Interpretation.member, numberedRow, List.lookup_cons, rowNumberName, Named.defaultName]

/-- Rows that come in the order of their numbers are not moved by an order by the numbers. -/
theorem sorted_pageRow (key : Nat) (rowType type : ValueType) (data : List Datum)
    (keep : Datum × Nat → Bool) {orderings : List Ordering}
    (h : orderings = [] ∨ orderings = [⟨numberOf key rowType, .asc⟩]) :
    I.sorted false (((data.zipIdx.filter keep).map (pageRow items key)).map fun row =>
      (orderingKeys I orderings row, (itemOf key rowType type).value I row)) =
      (data.zipIdx.filter keep).map Prod.fst := by
  have increasing : (data.zipIdx.filter keep).Pairwise fun a b => a.2 < b.2 := by
    refine List.Pairwise.filter _ (List.pairwise_map.mp ?_)
    rw [List.zipIdx_map_snd]
    exact List.pairwise_lt_range'
  rw [List.map_map, Interpretation.sorted_of_pairwise, List.map_map]
  · exact List.map_congr_left fun entry _ => value_itemOf key rowType type entry
  · refine List.pairwise_map.mpr (increasing.imp fun {a b} less => ?_)
    rcases h with rfl | rfl
    · rfl
    · change I.keysLe [(.asc, (numberOf key rowType).value I (pageRow items key a))]
        [(.asc, (numberOf key rowType).value I (pageRow items key b))] = true
      rw [value_numberOf, value_numberOf, Interpretation.keysLe_int]
      exact decide_eq_true (by omega)

theorem rows_eq (h : Paged I items data offset bound s) :
    s.rows I items = (data.take bound).drop offset ∧
      s.asSource.rows I items = (data.take bound).drop offset := by
  cases h with
  | @intro key tableAlias inner rowType type countType c source boolean range =>
    have admitted : ((tableRows I [.ofSource key (.statement tableAlias inner) .inner] items).filter
        fun row => (c.value I row).isTrue) =
        (data.zipIdx.filter (inRange offset bound)).map (pageRow items key) := by
      rw [tableRows_ofSource, Source.rows, source, numberedRows, List.map_map, List.filter_map]
      exact congrArg (List.map (pageRow items key)) (List.filter_congr range)
    have selected {orderings : List Ordering}
        (h : orderings = [] ∨ orderings = [⟨numberOf key rowType, .asc⟩]) :
        I.sorted false (((tableRows I [.ofSource key (.statement tableAlias inner) .inner]
          items).filter fun row => (c.value I row).isTrue).map fun row =>
            (orderingKeys I orderings row, (itemOf key rowType type).value I row)) =
          (data.take bound).drop offset := by
      rw [admitted, sorted_pageRow key rowType type data _ h]
      exact map_filter_zipIdx data offset bound 0
    constructor
    · rw [rows_of_ungrouped rfl]
      exact selected (.inr rfl)
    · rw [rows_of_ungrouped rfl]
      exact selected (.inl rfl)

/-- The first rows behind skipped ones. -/
theorem take (h : Paged I items data offset bound s) (n : Nat) (type : ValueType) (f : Fresh) :
    ∃ t, s.take (.constant (.int n) type) f = .ok (t, f) ∧
      Paged I items data offset (min bound (offset + n)) t := by
  cases h with
  | @intro key tableAlias inner rowType type' countType c source boolean range =>
    refine ⟨page key tableAlias inner rowType type' (.constant (.int offset) countType)
      (Expr.and c (.binaryOf .lessThanOrEqual (numberOf key rowType)
        (.add (.constant (.int offset) countType) (.constant (.int n) type)))),
      rfl, .intro source rfl fun entry mem => ?_⟩
    rw [Expr.isTrue_and, range entry mem]
    change (_ && (I.binary .lessThanOrEqual ((numberOf key rowType).value I (pageRow items key entry))
      (.int (offset + n))).isTrue) = _
    rw [value_numberOf]
    change (_ && (Datum.value (.bool (decide (((entry.2 + 1 : Nat) : Int) ≤ offset + n)))).isTrue) = _
    rw [Datum.isTrue_bool, inRange, inRange, ← Bool.decide_and]
    exact decide_eq_decide.mpr (by omega)

end Paged

/-- A statement with given rows, which operators can be applied to. -/
structure Yields (I : Interpretation) (items : Items) (data : List Datum) (s : Statement) : Prop where
  form : s.Plain ∨ ∃ whole offset bound, Paged I items whole offset bound s
  rows : s.rows I items = data

namespace Yields

theorem sequence (h : Yields I items data s) : s.shape.isSequence = true := by
  rcases h.form with plain | ⟨whole, offset, bound, paged⟩
  · exact plain.sequence
  · cases paged
    rfl

theorem boolean (h : Yields I items data s) : ∀ c ∈ s.condition, c.type.isBoolean = true := by
  rcases h.form with plain | ⟨whole, offset, bound, paged⟩
  · exact plain.boolean
  · cases paged with
    | intro source boolean range =>
      intro c hc
      obtain rfl := Option.some.inj hc
      exact boolean

theorem rows_asSource (h : Yields I items data s) : s.asSource.rows I items = data := by
  rcases h.form with plain | ⟨whole, offset, bound, paged⟩
  · exact plain.rows_asSource.trans h.rows
  · rw [paged.rows_eq.2, ← paged.rows_eq.1, h.rows]

theorem nested (h : Yields I items data s) (f : Fresh) :
    ∃ key tableAlias f', s.nested f = .ok ((around key tableAlias s.asSource,
      .tableReference key s.asSource.projection.type), f') ∧
      (around key tableAlias s.asSource).rows I items = data :=
  ⟨_, _, _, nested_of_boolean h.boolean f, (rows_around _ _ _).trans h.rows_asSource⟩

/-- A statement that is put into another one if it limits rows already in some way. -/
theorem nestedIf (h : Yields I items data s) {condition : Bool} (plain : condition = false → s.Plain)
    (f : Fresh) :
    ∃ t f', s.nestedIf condition f = .ok (t, f') ∧ t.Plain ∧ t.rows I items = data ∧
      (condition = false ∧ t = s ∨ t.top = none ∧ t.isDistinct = false) := by
  cases condition with
  | false => exact ⟨s, f, rfl, plain rfl, h.rows, .inl ⟨rfl, rfl⟩⟩
  | true =>
    obtain ⟨key, tableAlias, f', nested, rows⟩ := h.nested f
    refine ⟨_, f', ?_, plain_around key tableAlias s.asSource, rows, .inr ⟨rfl, rfl⟩⟩
    exact Supply.bind_eq_ok.mpr ⟨_, f', nested, rfl⟩

theorem plain_of_unlimited (h : Yields I items data s) (unlimited : s.limitsRows = false) :
    s.Plain ∧ s.top = none ∧ s.isDistinct = false := by
  simp only [limitsRows, Bool.or_eq_false_iff, Option.isSome_eq_false_iff,
    Option.isNone_iff_eq_none] at unlimited
  obtain ⟨⟨⟨top, repeats⟩, unpaged⟩, -⟩ := unlimited
  rcases h.form with plain | ⟨whole, offset, bound, paged⟩
  · exact ⟨plain, top, repeats⟩
  · cases paged
    cases unpaged

/-- A statement that selects the same rows and limits them in no way. -/
theorem unlimited (h : Yields I items data s) (f : Fresh) :
    ∃ t f', s.nestedIf s.limitsRows f = .ok (t, f') ∧ t.Plain ∧ t.rows I items = data ∧
      t.top = none ∧ t.isDistinct = false := by
  obtain ⟨t, f', nested, plain, rows, outcome⟩ :=
    h.nestedIf (fun unlimited => (h.plain_of_unlimited unlimited).1) f
  refine ⟨t, f', nested, plain, rows, ?_⟩
  rcases outcome with ⟨unlimited, rfl⟩ | fresh
  · exact (h.plain_of_unlimited unlimited).2
  · exact fresh

theorem take (h : Yields I items data s) (n : Nat) (type : ValueType) (f : Fresh) :
    ∃ t f', s.take (.constant (.int n) type) f = .ok (t, f') ∧ Yields I items (data.take n) t := by
  rcases h.form with plain | ⟨whole, offset, bound, paged⟩
  · obtain ⟨t, f', nested, plain', rows, outcome⟩ :=
      h.nestedIf (fun _ : s.top.isSome = false => plain) f
    have top : t.top = none := by
      rcases outcome with ⟨top, rfl⟩ | ⟨top, -⟩
      · simpa using top
      · exact top
    refine ⟨_, f', ?_, .inl (plain'.take _), (plain'.rows_take top n type).trans (by rw [rows])⟩
    unfold Statement.take
    rw [plain.unpaged]
    exact Supply.bind_eq_ok.mpr ⟨t, f', nested, rfl⟩
  · obtain ⟨t, taken, paged'⟩ := paged.take n type f
    refine ⟨t, f, taken, .inr ⟨whole, offset, _, paged'⟩, ?_⟩
    rw [paged'.rows_eq.1, ← h.rows, paged.rows_eq.1, List.take_drop, List.take_take, Nat.min_comm]

theorem skip (h : Yields I items data s) (n : Nat) (type : ValueType) (f : Fresh) :
    ∃ t f', s.skip (.constant (.int n) type) f = .ok (t, f') ∧ Yields I items (data.drop n) t := by
  obtain ⟨t, f₁, nested, plain, rows, top, repeats⟩ := h.unlimited f
  have whole : t.numbered.asSource = t.numbered := by
    simp [asSource, numbered, Expr.withColumnName, top]
  have source : t.numbered.asSource.rows I items = numberedRows data := by
    rw [whole, plain.rows_numbered top repeats, rows]
  have placed := nested_of_boolean (s := t.numbered) plain.boolean f₁
  have paged : Paged I items data n data.length
      (page f₁.key.1 (f₁.key.2.named "q").1 t.numbered.asSource
        t.numbered.asSource.projection.type t.projection.type (.constant (.int n) type)
        (.binaryOf .greaterThan (numberOf f₁.key.1 t.numbered.asSource.projection.type)
          (.constant (.int n) type))) := by
    refine .intro source rfl fun entry mem => ?_
    have bound : entry.2 < data.length := List.snd_lt_of_mem_zipIdx mem
    change (I.binary .greaterThan ((numberOf _ _).value I (pageRow items _ entry)) (.int n)).isTrue = _
    rw [Paged.value_numberOf]
    change (Datum.value (.bool (decide ((n : Int) < (entry.2 + 1 : Nat))))).isTrue = _
    rw [Datum.isTrue_bool]
    exact decide_eq_decide.mpr (by omega)
  refine ⟨_, _, Supply.bind_eq_ok.mpr ⟨t, f₁, nested, Supply.bind_eq_ok.mpr ⟨_, _, placed, rfl⟩⟩,
    .inr ⟨data, n, data.length, paged⟩, ?_⟩
  exact paged.rows_eq.1.trans (by rw [List.take_length])

theorem distinct (h : Yields I items data s) (f : Fresh) :
    ∃ t f', s.distinct f = .ok (t, f') ∧ Yields I items data.eraseDups t := by
  have unpaged (unlimited : (s.top.isSome || s.rowNumber.isSome) = false) : s.Plain := by
    rcases h.form with plain | ⟨whole, offset, bound, paged⟩
    · exact plain
    · cases paged
      cases unlimited
  obtain ⟨t, f', nested, plain, rows, outcome⟩ := h.nestedIf unpaged f
  have top : t.top = none := by
    rcases outcome with ⟨unlimited, rfl⟩ | ⟨top, -⟩
    · simpa using (Bool.or_eq_false_iff.mp unlimited).1
    · exact top
  exact ⟨_, f', Supply.bind_eq_ok.mpr ⟨t, f', nested, rfl⟩, .inl plain.distinct,
    (plain.rows_distinct top).trans (by rw [rows])⟩

theorem count (h : Yields I items data s) (type : ValueType) (f : Fresh) :
    ∃ t f', s.aggregate .count (some type) f = .ok (t, f') ∧ t.checked = .ok t ∧
      t.rows I items = [.int data.length] := by
  obtain ⟨t, f', nested, plain, rows, top, repeats⟩ := h.unlimited f
  refine ⟨_, f', Supply.bind_eq_ok.mpr ⟨t, f', nested, rfl⟩, checked_of_boolean plain.boolean, ?_⟩
  rw [← rows]
  exact plain.rows_count top repeats type

end Yields

end Statement

end Comprehension.Sql
