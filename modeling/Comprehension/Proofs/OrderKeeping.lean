import Comprehension.Proofs.OperatorSteps

/-!
What becomes of an order when rows are taken and skipped. A statement in order stays so as long as
it is limited once, or skipped once and then limited. Any other sequence of such operators nests the
statement before the order is used, and from then on rows are picked in no order at all.
-/
namespace Comprehension

open Method (Registry)

namespace Sql

/-- The tables of a statement around tables that were there before, and the statements in between,
from the outermost to the innermost. -/
inductive Layered (tables : List Table) : List Table → List Statement → Prop where
  | own : Layered tables tables []
  | around (key : Nat) (tableAlias : String) {inner : Statement} {below : List Statement}
    (h : Layered tables inner.tables below) :
    Layered tables [.ofSource key (.statement tableAlias inner) .inner] (inner :: below)

theorem Layered.of_eq {tables tables' : List Table} (h : tables' = tables) :
    Layered tables tables' [] :=
  h ▸ .own

/-- What a source numbers its rows by. -/
def Expr.numbering? : Expr → Option (List Ordering)
  | .compound [_, ⟨_, .rowNumber orderings⟩] => some orderings
  | _ => none

namespace Statement

/-- What the rows of a page are numbered by. -/
def numberedBy? (s : Statement) : Option (List Ordering) :=
  if s.rowNumber.isSome then
    (sourceStatements s.tables).findSome? fun inner => inner.projection.numbering?
  else none

/-- What rows are numbered by when they have no order. -/
def placeholder : List Ordering := [⟨.int 1, .asc⟩]

/-- Rows are taken in an order only, and numbered in the order that was asked for. -/
structure InOrder (order : List Ordering) (s : Statement) : Prop where
  taken : s.top.isSome = true → s.orderings ≠ []
  numbered : ∀ orderings, s.numberedBy? = some orderings → orderings = order

/-- Rows are taken or numbered in no order. -/
def Arbitrary (s : Statement) : Prop :=
  (s.top.isSome = true ∧ s.orderings = []) ∨ s.numberedBy? = some placeholder

theorem Arbitrary.asSource {s : Statement} (h : s.Arbitrary) : s.asSource.Arbitrary := by
  rcases h with ⟨top, unordered⟩ | numbered
  · refine .inl ⟨top, ?_⟩
    rw [Statement.asSource, unordered, ite_self]
  · exact .inr numbered

theorem Arbitrary.numbered {s : Statement} (h : s.Arbitrary) : s.numbered.Arbitrary := by
  rcases h with ⟨top, -⟩ | numbered
  · exact .inl ⟨top, rfl⟩
  · exact .inr numbered

/-- Somewhere between a statement and the tables that were there before, the order is lost. -/
def LosesOrder (tables : List Table) (s : Statement) : Prop :=
  ∃ below, Layered tables s.tables below ∧ ∃ t ∈ s :: below, t.Arbitrary

/-- Everywhere between a statement and the tables that were there before, the order is kept. -/
def KeepsOrder (tables : List Table) (order : List Ordering) (s : Statement) : Prop :=
  ∃ below, Layered tables s.tables below ∧ ∀ t ∈ s :: below, t.InOrder order

variable {tables : List Table} {order : List Ordering} {s t u : Statement} {f f' : Fresh}

namespace LosesOrder

/-- The order stays lost when clauses of the statement change. -/
theorem replace (h : LosesOrder tables s) (same : t.tables = s.tables)
    (arbitrary : s.Arbitrary → t.Arbitrary) : LosesOrder tables t := by
  obtain ⟨below, layered, v, hv, lost⟩ := h
  refine ⟨below, same ▸ layered, ?_⟩
  rcases List.mem_cons.mp hv with rfl | hv
  · exact ⟨t, List.mem_cons_self, arbitrary lost⟩
  · exact ⟨v, List.mem_cons_of_mem _ hv, lost⟩

/-- The order stays lost when the statement becomes a source. -/
theorem enclose (h : LosesOrder tables s) {key : Nat} {tableAlias : String}
    (same : t.tables = [.ofSource key (.statement tableAlias s) .inner]) : LosesOrder tables t := by
  obtain ⟨below, layered, v, hv, lost⟩ := h
  exact ⟨s :: below, same ▸ layered.around key tableAlias, v, List.mem_cons_of_mem _ hv, lost⟩

theorem asSource (h : LosesOrder tables s) : LosesOrder tables s.asSource :=
  h.replace rfl Arbitrary.asSource

theorem nests {condition : Bool} (h : LosesOrder tables s) (nests : Nests condition s u) :
    LosesOrder tables u := by
  cases nests with
  | stays => exact h
  | around => exact h.asSource.enclose rfl

theorem withTop (h : LosesOrder tables s) (top : Expr) (shape : Shape) :
    LosesOrder tables { s with top := some top, shape } := by
  refine h.replace rfl fun lost => ?_
  rcases lost with ⟨-, unordered⟩ | numbered
  · exact .inl ⟨rfl, unordered⟩
  · exact .inr numbered

theorem take {count : Expr} (h : LosesOrder tables s) (taken : s.take count f = .ok (t, f')) :
    LosesOrder tables t := by
  rcases take_cases taken with ⟨_, _, -, -, rfl⟩ | ⟨-, u, nests, rfl⟩
  · exact h.replace rfl id
  · exact (h.nests nests).withTop count u.shape

theorem singleRow {rows : Int} {orDefault : Bool} (h : LosesOrder tables s)
    (limited : s.singleRow rows orDefault f = .ok (t, f')) : LosesOrder tables t := by
  obtain ⟨u, nests, rfl⟩ := singleRow_cases limited
  exact (h.nests nests).withTop _ _

theorem skip {offset : Expr} (h : LosesOrder tables s) (skipped : s.skip offset f = .ok (t, f')) :
    LosesOrder tables t := by
  obtain ⟨u, key, tableAlias, nests, rfl⟩ := skip_cases skipped
  have numbered := (h.nests nests).replace (t := u.numbered) rfl Arbitrary.numbered
  exact numbered.asSource.enclose rfl

end LosesOrder

/-- Rows that are taken of a statement that was just nested are arbitrary ones. -/
theorem losesOrder_top {below : List Statement} (layered : Layered tables s.tables below)
    (nests : Nests true s u) (top : Expr) (shape : Shape) :
    LosesOrder tables { u with top := some top, shape } := by
  cases nests with
  | around _ key tableAlias =>
    exact ⟨s.asSource :: below, .around key tableAlias layered, _, List.mem_cons_self,
      .inl ⟨rfl, rfl⟩⟩

/-- Rows of a statement that was just nested are numbered in no order. -/
theorem losesOrder_page {below : List Statement} (layered : Layered tables s.tables below)
    (nests : Nests true s u) (key : Nat) (tableAlias : String) (rowType type : ValueType)
    (offset condition : Expr) :
    LosesOrder tables
      (page key tableAlias u.numbered.asSource rowType type offset condition) := by
  cases nests with
  | around _ innerKey innerAlias =>
    have inner : Layered tables (around innerKey innerAlias s.asSource).numbered.asSource.tables
        (s.asSource :: below) := .around innerKey innerAlias layered
    exact ⟨_ :: _, .around key tableAlias inner, _, List.mem_cons_self, .inr rfl⟩

/-- A statement before any operator. -/
structure Untouched (tables : List Table) (order : List Ordering) (grouped : Bool) (s : Statement) :
    Prop where
  tables : s.tables = tables
  orderings : s.orderings = order
  top : s.top = none
  repeats : s.isDistinct = false
  unpaged : s.rowNumber = none
  grouping : s.grouping.isSome = grouped

/-- A statement whose first rows are taken in its order. -/
structure Limited (tables : List Table) (order : List Ordering) (s : Statement) : Prop where
  tables : s.tables = tables
  orderings : s.orderings = order
  top : s.top.isSome = true
  unpaged : s.rowNumber = none

/-- A page of rows that are numbered in the order of their source. -/
structure PageOf (tables : List Table) (order : List Ordering) (s : Statement) : Prop where
  source : ∃ key tableAlias inner, s.tables = [.ofSource key (.statement tableAlias inner) .inner] ∧
    inner.tables = tables ∧ inner.top = none ∧ inner.rowNumber = none ∧
    inner.projection.numbering? = some order
  orderings : s.orderings ≠ []
  number : s.rowNumber.isSome = true
  start : s.rowOffset.isSome = true

theorem numberedBy?_of_unpaged (h : s.rowNumber = none) : s.numberedBy? = none := by
  rw [numberedBy?, h]
  rfl

theorem inOrder_of_unpaged (unpaged : s.rowNumber = none)
    (taken : s.top.isSome = true → s.orderings ≠ []) : s.InOrder order := by
  refine ⟨taken, fun orderings numbered => ?_⟩
  rw [numberedBy?_of_unpaged unpaged] at numbered
  cases numbered

section Untouched

variable {grouped : Bool}

theorem Untouched.keepsOrder (h : Untouched tables order grouped s) : KeepsOrder tables order s := by
  refine ⟨[], .of_eq h.tables, List.forall_mem_singleton.mpr (inOrder_of_unpaged h.unpaged ?_)⟩
  rw [h.top]
  exact nofun

theorem Untouched.limitsRows (h : Untouched tables order grouped s) : s.limitsRows = grouped := by
  rw [Statement.limitsRows, h.top, h.repeats, h.unpaged, h.grouping]
  rfl

theorem Untouched.withTop (h : Untouched tables order grouped s) (nests : Nests s.top.isSome s u)
    (top : Expr) (shape : Shape) : Limited tables order { u with top := some top, shape } := by
  rw [h.top] at nests
  cases nests
  exact ⟨h.tables, h.orderings, rfl, h.unpaged⟩

theorem Untouched.take {count : Expr} (h : Untouched tables order grouped s)
    (taken : s.take count f = .ok (t, f')) : Limited tables order t := by
  rcases take_cases taken with ⟨_, _, number, -, -⟩ | ⟨-, u, nests, rfl⟩
  · rw [h.unpaged] at number
    cases number
  · exact h.withTop nests count u.shape

theorem Untouched.singleRow {rows : Int} {orDefault : Bool} (h : Untouched tables order grouped s)
    (limited : s.singleRow rows orDefault f = .ok (t, f')) : Limited tables order t := by
  obtain ⟨u, nests, rfl⟩ := singleRow_cases limited
  exact h.withTop nests _ _

/-- The order becomes the numbering of the page. -/
theorem Untouched.skip {offset : Expr} (h : Untouched tables order false s) (ordered : order ≠ [])
    (skipped : s.skip offset f = .ok (t, f')) : PageOf tables order t ∧ t.top = none := by
  obtain ⟨u, key, tableAlias, nests, rfl⟩ := skip_cases skipped
  rw [h.limitsRows] at nests
  cases nests
  have numbering : s.numbering = order := by
    rw [Statement.numbering, h.orderings, if_neg (by simpa using ordered)]
  refine ⟨⟨⟨key, tableAlias, s.numbered.asSource, rfl, h.tables, h.top, h.unpaged, ?_⟩,
    List.cons_ne_nil _ _, rfl, rfl⟩, rfl⟩
  rw [← numbering]
  rfl

/-- Groups are nested first, and have no order. -/
theorem Untouched.skip_grouped {offset : Expr} (h : Untouched tables order true s)
    (skipped : s.skip offset f = .ok (t, f')) : LosesOrder tables t := by
  obtain ⟨u, key, tableAlias, nests, rfl⟩ := skip_cases skipped
  rw [h.limitsRows] at nests
  exact losesOrder_page (.of_eq h.tables) nests key tableAlias _ _ _ _

end Untouched

theorem Limited.keepsOrder (h : Limited tables order s) (ordered : order ≠ []) :
    KeepsOrder tables order s := by
  refine ⟨[], .of_eq h.tables, List.forall_mem_singleton.mpr (inOrder_of_unpaged h.unpaged ?_)⟩
  rw [h.orderings]
  exact fun _ => ordered

theorem Limited.take {count : Expr} (h : Limited tables order s)
    (taken : s.take count f = .ok (t, f')) : LosesOrder tables t := by
  rcases take_cases taken with ⟨_, _, number, -, -⟩ | ⟨-, u, nests, rfl⟩
  · rw [h.unpaged] at number
    cases number
  · rw [h.top] at nests
    exact losesOrder_top (.of_eq h.tables) nests count u.shape

theorem Limited.singleRow {rows : Int} {orDefault : Bool} (h : Limited tables order s)
    (limited : s.singleRow rows orDefault f = .ok (t, f')) : LosesOrder tables t := by
  obtain ⟨u, nests, rfl⟩ := singleRow_cases limited
  rw [h.top] at nests
  exact losesOrder_top (.of_eq h.tables) nests _ _

theorem Limited.skip {offset : Expr} (h : Limited tables order s)
    (skipped : s.skip offset f = .ok (t, f')) : LosesOrder tables t := by
  obtain ⟨u, key, tableAlias, nests, rfl⟩ := skip_cases skipped
  have limits : s.limitsRows = true := by simp [Statement.limitsRows, h.top]
  rw [limits] at nests
  exact losesOrder_page (.of_eq h.tables) nests key tableAlias _ _ _ _

namespace PageOf

theorem layered (h : PageOf tables order s) :
    ∃ inner, Layered tables s.tables [inner] ∧ s.numberedBy? = some order ∧
      inner.top = none ∧ inner.rowNumber = none := by
  obtain ⟨⟨key, tableAlias, inner, source, own, top, unpaged, numbering⟩, -, number, -⟩ := h
  refine ⟨inner, ?_, ?_, top, unpaged⟩
  · rw [source]
    exact .around key tableAlias (.of_eq own)
  · rw [numberedBy?, if_pos number, source]
    change List.findSome? _ [inner] = _
    rw [List.findSome?_cons, numbering]

theorem keepsOrder (h : PageOf tables order s) : KeepsOrder tables order s := by
  obtain ⟨inner, layered, numbered, top, unpaged⟩ := h.layered
  refine ⟨[inner], layered, ?_⟩
  rw [List.forall_mem_cons, List.forall_mem_singleton]
  constructor
  · refine ⟨fun _ => h.orderings, fun orderings found => ?_⟩
    rw [numbered] at found
    exact (Option.some.inj found).symm
  · refine inOrder_of_unpaged unpaged ?_
    rw [top]
    exact nofun

theorem take {count : Expr} (h : PageOf tables order s) (whole : s.top = none)
    (taken : s.take count f = .ok (t, f')) : PageOf tables order t ∧ t.top = none := by
  rcases take_cases taken with ⟨_, _, -, -, rfl⟩ | ⟨unpaged, -⟩
  · exact ⟨⟨h.source, h.orderings, h.number, h.start⟩, whole⟩
  · have number := h.number
    have start := h.start
    rcases unpaged with unpaged | unpaged
    · rw [unpaged] at number
      cases number
    · rw [unpaged] at start
      cases start

theorem singleRow {rows : Int} {orDefault : Bool} (h : PageOf tables order s)
    (whole : s.top = none) (limited : s.singleRow rows orDefault f = .ok (t, f')) :
    PageOf tables order t := by
  obtain ⟨u, nests, rfl⟩ := singleRow_cases limited
  rw [whole] at nests
  cases nests
  exact ⟨h.source, h.orderings, h.number, h.start⟩

theorem skip {offset : Expr} (h : PageOf tables order s)
    (skipped : s.skip offset f = .ok (t, f')) : LosesOrder tables t := by
  obtain ⟨u, key, tableAlias, nests, rfl⟩ := skip_cases skipped
  obtain ⟨inner, layered, -, -, -⟩ := h.layered
  have limits : s.limitsRows = true := by simp [Statement.limitsRows, h.number]
  rw [limits] at nests
  exact losesOrder_page layered nests key tableAlias _ _ _ _

end PageOf

end Statement

end Sql

namespace Query

open Sql.Statement (KeepsOrder Limited LosesOrder PageOf Untouched)

/-- Operators that take and skip rows, with at most one that asks for a single row at the end. -/
inductive Pages : List Operator → Prop where
  | nil : Pages []
  | first (orDefault : Bool) : Pages [.first orDefault]
  | single (orDefault : Bool) : Pages [.single orDefault]
  | take (count : Expr) {rest : List Operator} (h : Pages rest) : Pages (.take count :: rest)
  | skip (offset : Expr) {rest : List Operator} (h : Pages rest) : Pages (.skip offset :: rest)

def Operator.isSkip : Operator → Bool
  | .skip _ => true
  | _ => false

/-- Whether operators use the order of the rows before they nest the statement: rows are limited
once, or those of no groups are skipped once and then limited. -/
def keepOrder (grouped : Bool) : List Operator → Bool
  | [] => true
  | .skip _ :: rest => !grouped && rest.all (!·.isSkip)
  | _ :: rest => rest.isEmpty

/-- What such operators do to a statement, one after the other. -/
inductive PagingRun : List Operator → Sql.Statement → Sql.Statement → Prop where
  | done {s : Sql.Statement} : PagingRun [] s s
  | one {s t : Sql.Statement} {operator : Operator} {rows : Int} {orDefault : Bool} {f f' : Fresh}
    (isSkip : operator.isSkip = false) (limited : s.singleRow rows orDefault f = .ok (t, f')) :
    PagingRun [operator] s t
  | take {s t u : Sql.Statement} {count : Expr} {e : Sql.Expr} {rest : List Operator} {f f' : Fresh}
    (taken : s.take e f = .ok (u, f')) (others : PagingRun rest u t) :
    PagingRun (.take count :: rest) s t
  | skip {s t u : Sql.Statement} {offset : Expr} {e : Sql.Expr} {rest : List Operator} {f f' : Fresh}
    (skipped : s.skip e f = .ok (u, f')) (others : PagingRun rest u t) :
    PagingRun (.skip offset :: rest) s t

section Operators

variable {registry : Registry} {scope : Scope} {tables : List Sql.Table} {order : List Sql.Ordering}
  {s t : Sql.Statement} {operators : List Operator} {f f' : Fresh}

theorem pagingRun_of_prepareOperators (pages : Pages operators)
    (run : prepareOperators registry scope s operators f = .ok (t, f')) :
    PagingRun operators s t := by
  induction pages generalizing s f with
  | nil =>
    obtain ⟨rfl, rfl⟩ := Supply.pure_eq_ok.mp run
    exact .done
  | first orDefault | single orDefault =>
    obtain ⟨u, f₁, limited, rest⟩ := prepareOperators_cons_eq_ok run
    obtain ⟨rfl, rfl⟩ := Supply.pure_eq_ok.mp rest
    exact .one rfl limited
  | take count _ ih =>
    obtain ⟨u, f₁, taken, rest⟩ := prepareOperators_cons_eq_ok run
    obtain ⟨e, f₂, -, taken⟩ := Supply.bind_eq_ok.mp taken
    exact .take taken (ih rest)
  | skip offset _ ih =>
    obtain ⟨u, f₁, skipped, rest⟩ := prepareOperators_cons_eq_ok run
    obtain ⟨e, f₂, -, skipped⟩ := Supply.bind_eq_ok.mp skipped
    exact .skip skipped (ih rest)

end Operators

namespace PagingRun

variable {tables : List Sql.Table} {order : List Sql.Ordering} {s t : Sql.Statement}
  {operators : List Operator}

/-- Once lost, an order does not come back. -/
theorem ofLosesOrder (run : PagingRun operators s t) (h : LosesOrder tables s) :
    LosesOrder tables t := by
  induction run with
  | done => exact h
  | one _ limited => exact h.singleRow limited
  | take taken _ ih => exact ih (h.take taken)
  | skip skipped _ ih => exact ih (h.skip skipped)

/-- A page keeps the order until rows are skipped once more. -/
theorem ofPage (run : PagingRun operators s t) (h : PageOf tables order s) (whole : s.top = none) :
    (operators.all (!·.isSkip) = true → KeepsOrder tables order t) ∧
      (operators.all (!·.isSkip) = false → LosesOrder tables t) := by
  induction run with
  | done => exact ⟨fun _ => h.keepsOrder, nofun⟩
  | one isSkip limited =>
    refine ⟨fun _ => (h.singleRow whole limited).keepsOrder, fun skips => ?_⟩
    rw [List.all_cons, isSkip] at skips
    cases skips
  | take taken _ ih =>
    obtain ⟨page, whole⟩ := h.take whole taken
    exact ih page whole
  | skip skipped others _ => exact ⟨nofun, fun _ => others.ofLosesOrder (h.skip skipped)⟩

/-- First rows are nested by whatever operator follows. -/
theorem ofLimited (run : PagingRun operators s t) (h : Limited tables order s)
    (ordered : order ≠ []) :
    (operators.isEmpty = true → KeepsOrder tables order t) ∧
      (operators.isEmpty = false → LosesOrder tables t) := by
  cases run with
  | done => exact ⟨fun _ => h.keepsOrder ordered, nofun⟩
  | one _ limited => exact ⟨nofun, fun _ => h.singleRow limited⟩
  | take taken others => exact ⟨nofun, fun _ => others.ofLosesOrder (h.take taken)⟩
  | skip skipped others => exact ⟨nofun, fun _ => others.ofLosesOrder (h.skip skipped)⟩

theorem ofUntouched {grouped : Bool} (run : PagingRun operators s t)
    (h : Untouched tables order grouped s) (ordered : order ≠ []) :
    (keepOrder grouped operators = true → KeepsOrder tables order t) ∧
      (keepOrder grouped operators = false → LosesOrder tables t) := by
  cases run with
  | done => exact ⟨fun _ => h.keepsOrder, nofun⟩
  | @one _ _ operator _ _ _ _ isSkip limited =>
    have keep : keepOrder grouped [operator] = true := by
      cases operator with
      | skip offset => cases isSkip
      | _ => rfl
    rw [keep]
    exact ⟨fun _ => (h.singleRow limited).keepsOrder ordered, nofun⟩
  | take taken others => exact others.ofLimited (h.take taken) ordered
  | skip skipped others =>
    cases grouped with
    | true => exact ⟨nofun, fun _ => others.ofLosesOrder (h.skip_grouped skipped)⟩
    | false =>
      obtain ⟨page, whole⟩ := h.skip ordered skipped
      exact others.ofPage page whole

end PagingRun

/-- Whether a query yields groups of rows. -/
def Yield.isGroup : Yield → Bool
  | .select _ => false
  | .group .. => true

/-- The sources and clauses of a query, before its selection. -/
def Model.prepareBody (registry : Registry) (scope : Scope) (m : Model) : Supply (Scope × Body) := do
  let (scope, body) ← m.main.prepare registry scope ⟨[], none, []⟩
  prepareClauses registry scope body m.clauses

section Clauses

variable {registry : Registry} {scope scope' : Scope} {body body' : Body} {f f' : Fresh}

theorem length_prepareOrderings {orderings : List Ordering} {prepared : List Sql.Ordering}
    (h : prepareOrderings registry scope orderings f = .ok (prepared, f')) :
    prepared.length = orderings.length := by
  induction orderings generalizing prepared f with
  | nil =>
    obtain ⟨rfl, rfl⟩ := Supply.pure_eq_ok.mp h
    rfl
  | cons ordering rest ih =>
    obtain ⟨e, f₁, others, -, hr, rfl⟩ := prepareOrderings_cons_eq_ok h
    rw [List.length_cons, List.length_cons, ih hr]

/-- A clause drops no order, and an order by something is one. -/
theorem Clause.orderings_ne_nil {clause : Clause}
    (h : clause.prepare registry scope body f = .ok ((scope', body'), f'))
    (ordered : body.orderings ≠ [] ∨ ∃ orderings, clause = .orderBy orderings ∧ orderings ≠ []) :
    body'.orderings ≠ [] := by
  have kept (other : ∀ orderings, clause ≠ .orderBy orderings) : body.orderings ≠ [] := by
    rcases ordered with ordered | ⟨orderings, rfl, -⟩
    · exact ordered
    · exact absurd rfl (other orderings)
  cases clause with
  | source source =>
    rw [Clause.prepare] at h
    obtain ⟨key, f₁, rows, -, -, rfl, rfl⟩ := Source.prepare_eq_ok h
    exact kept (by rintro _ ⟨⟩)
  | filter predicate =>
    obtain ⟨e, -, rfl, rfl⟩ := Clause.prepare_filter_eq_ok h
    exact kept (by rintro _ ⟨⟩)
  | orderBy orderings =>
    obtain ⟨prepared, hp, rfl, rfl⟩ := Clause.prepare_orderBy_eq_ok h
    rcases ordered with ordered | ⟨_, same, nonempty⟩
    · exact List.append_ne_nil_of_right_ne_nil _ ordered
    · cases same
      have length := length_prepareOrderings hp
      refine List.append_ne_nil_of_left_ne_nil (fun empty => nonempty ?_) _
      rw [empty] at length
      exact List.eq_nil_of_length_eq_zero length.symm
  | bind name expression =>
    obtain ⟨e, -, rfl, rfl⟩ := Clause.prepare_bind_eq_ok h
    exact kept (by rintro _ ⟨⟩)
  | keyJoin | groupJoin =>
    exact (Supply.throw_ne_ok.mp h).elim

theorem prepareClauses_orderings_ne_nil {clauses : List Clause}
    (h : prepareClauses registry scope body clauses f = .ok ((scope', body'), f'))
    (ordered : body.orderings ≠ [] ∨ ∃ orderings, .orderBy orderings ∈ clauses ∧ orderings ≠ []) :
    body'.orderings ≠ [] := by
  induction clauses generalizing scope body f with
  | nil =>
    obtain ⟨result, rfl⟩ := Supply.pure_eq_ok.mp h
    obtain ⟨rfl, rfl⟩ := Prod.mk.inj result
    simpa using ordered
  | cons clause rest ih =>
    obtain ⟨⟨scope₁, body₁⟩, f₁, first, others⟩ := Supply.bind_eq_ok.mp h
    refine ih others ?_
    rcases ordered with ordered | ⟨orderings, mem, nonempty⟩
    · exact .inl (clause.orderings_ne_nil first (.inl ordered))
    · rcases List.mem_cons.mp mem with rfl | mem
      · exact .inl (Clause.orderings_ne_nil first (.inr ⟨orderings, rfl, nonempty⟩))
      · exact .inr ⟨orderings, mem, nonempty⟩

theorem Yield.untouched {yield : Yield} {s : Sql.Statement}
    (h : yield.prepare registry scope body f = .ok (s, f')) :
    Untouched body.tables body.orderings yield.isGroup s := by
  cases yield with
  | select selector =>
    obtain ⟨e, -, rfl⟩ := Yield.prepare_select_eq_ok h
    exact ⟨rfl, rfl, rfl, rfl, rfl, rfl⟩
  | group key element =>
    obtain ⟨e, -, rfl⟩ := Yield.prepare_group_eq_ok h
    exact ⟨rfl, rfl, rfl, rfl, rfl, rfl⟩

end Clauses

namespace Model

variable {registry : Registry} {scope : Scope} {m : Model} {s : Sql.Statement} {f₀ f : Fresh}

/-- A query is prepared in three steps. -/
theorem prepareIn_eq_ok (h : m.prepareIn registry scope f₀ = .ok (s, f)) :
    ∃ scope' body f₁ t f₂, m.prepareBody registry scope f₀ = .ok ((scope', body), f₁) ∧
      m.yield.prepare registry scope' body f₁ = .ok (t, f₂) ∧
      prepareOperators registry scope' t m.operators f₂ = .ok (s, f) := by
  obtain ⟨main, clauses, yield, operators⟩ := m
  obtain ⟨scope₁, body₁, f₁, scope', body, f₂, t, f₃, hm, hc, yielded, applied⟩ :=
    prepareIn_mk_eq_ok h
  exact ⟨scope', body, f₂, t, f₃, Supply.bind_eq_ok.mpr ⟨(scope₁, body₁), f₁, hm, hc⟩, yielded,
    applied⟩

/-- A query with an order whose rows are taken and skipped: the rows are taken and numbered in that
order throughout if its operators keep the order, and in no order somewhere if they do not. -/
theorem order_kept_or_lost (prepared : m.prepareIn registry scope f₀ = .ok (s, f))
    (ordered : ∃ orderings, .orderBy orderings ∈ m.clauses ∧ orderings ≠ [])
    (pages : Pages m.operators) :
    ∃ scope' body f₁ below, m.prepareBody registry scope f₀ = .ok ((scope', body), f₁) ∧
      body.orderings ≠ [] ∧ Sql.Layered body.tables s.tables below ∧
      (keepOrder m.yield.isGroup m.operators = true →
        ∀ t ∈ s :: below, t.InOrder body.orderings) ∧
      (keepOrder m.yield.isGroup m.operators = false → ∃ t ∈ s :: below, t.Arbitrary) := by
  obtain ⟨scope', body, f₁, t, f₂, drawn, yielded, applied⟩ := prepareIn_eq_ok prepared
  obtain ⟨⟨scope₁, body₁⟩, f₃, -, clauses⟩ := Supply.bind_eq_ok.mp drawn
  have nonempty := prepareClauses_orderings_ne_nil clauses (.inr ordered)
  have run := pagingRun_of_prepareOperators pages applied
  obtain ⟨kept, lost⟩ := run.ofUntouched (Yield.untouched yielded) nonempty
  cases keeps : keepOrder m.yield.isGroup m.operators with
  | true =>
    obtain ⟨below, layered, inOrder⟩ := kept keeps
    exact ⟨scope', body, f₁, below, drawn, nonempty, layered, fun _ => inOrder, nofun⟩
  | false =>
    obtain ⟨below, layered, arbitrary⟩ := lost keeps
    exact ⟨scope', body, f₁, below, drawn, nonempty, layered, nofun, fun _ => arbitrary⟩

/-- The cooks by their names, with operators on the result. -/
def cooksByName (operators : List Operator) : Model :=
  let cook : Expr := .item "c" (.entity "Cook")
  { main := .table "c" "Cook"
    clauses := [.orderBy [⟨.member cook "FirstName" .string, .asc⟩]]
    yield := .select cook
    operators }

/-- Of the three cooks after the first five, the first one. -/
def sixthCook : Model :=
  cooksByName [.skip (.constant (.int 5) .int32), .take (.constant (.int 3) .int32), .first false]

theorem sixthCook_inOrder :
    ∃ s f scope body f₁ below, sixthCook.prepareIn .defaults [] {} = .ok (s, f) ∧
      sixthCook.prepareBody .defaults [] {} = .ok ((scope, body), f₁) ∧
      Sql.Layered body.tables s.tables below ∧ ∀ t ∈ s :: below, t.InOrder body.orderings := by
  have success : (sixthCook.prepareIn .defaults [] {}).toOption.any (fun _ => true) = true := by
    decide +kernel
  obtain ⟨⟨s, f⟩, prepared, -⟩ := Outcome.exists_of_any success
  obtain ⟨scope, body, f₁, below, drawn, -, layered, kept, -⟩ :=
    order_kept_or_lost prepared ⟨_, List.mem_cons_self, List.cons_ne_nil _ _⟩
      (.skip _ (.take _ (.first false)))
  exact ⟨s, f, scope, body, f₁, below, prepared, drawn, layered, kept rfl⟩

/-- Of the first five cooks, the first three. -/
def firstCooks : Model :=
  cooksByName [.take (.constant (.int 5) .int32), .take (.constant (.int 3) .int32)]

/-- The three are no longer taken in the order of the five. -/
theorem firstCooks_arbitrary :
    (∃ orderings, .orderBy orderings ∈ firstCooks.clauses ∧ orderings ≠ []) ∧
      Pages firstCooks.operators ∧
      ∃ s f, firstCooks.prepareIn .defaults [] {} = .ok (s, f) ∧ s.top.isSome = true ∧
        s.orderings = [] := by
  have unordered : (firstCooks.prepareIn .defaults [] {}).toOption.any
      (fun result => result.1.top.isSome && result.1.orderings.isEmpty) = true := by
    decide +kernel
  obtain ⟨⟨s, f⟩, prepared, unordered⟩ := Outcome.exists_of_any unordered
  rw [Bool.and_eq_true, List.isEmpty_iff] at unordered
  exact ⟨⟨_, List.mem_cons_self, List.cons_ne_nil _ _⟩, .take _ (.take _ .nil), s, f, prepared,
    unordered⟩

end Model

end Query

end Comprehension
