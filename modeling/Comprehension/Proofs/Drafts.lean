import Comprehension.Prepared.Drafts
import Comprehension.Proofs.Resolution

/-!
Preparation works on complete statements, where the clauses are on their own at first. It does what
preparation on drafts does: from the projection on a draft lacks nothing, so each result operator
finds what it is applied to.
-/
namespace Comprehension

namespace Sql.Draft

open Supply (lift_ok)

/-- A statement that is well formed is so as a source too. -/
theorem freeze_asSource {s t : Statement} (h : s.checked = .ok t) :
    (ofStatement t).asSource.freeze = .ok t.asSource := by
  obtain rfl := Statement.checked_eq_ok h
  have boolean := Statement.checked_self.mp h
  exact (freeze_ofStatement t.asSource).trans (Statement.checked_self.mpr boolean)

theorem operand_ofStatement (s : Statement) : (ofStatement s).operand = .ok s.projection := rfl

theorem nested_ofStatement (s : Statement) :
    (ofStatement s).nested = Prod.map ofStatement id <$> s.nested := by
  unfold nested Statement.nested
  rw [freeze_ofStatement]
  cases checked : s.checked with
  | error e => rfl
  | ok t =>
    -- The draft is frozen twice, as it stands and as a source, and the second time cannot fail.
    simp only [lift_ok, pure_bind, freeze_asSource checked, map_bind, map_pure]
    rfl

theorem nestedIf_ofStatement (condition : Bool) (s : Statement) :
    (ofStatement s).nestedIf condition = ofStatement <$> s.nestedIf condition := by
  cases condition with
  | false => simp [nestedIf, Statement.nestedIf]
  | true => simp [nestedIf, Statement.nestedIf, nested_ofStatement]

theorem aggregate_ofStatement (function : Aggregate) (type? : Option ValueType) (s : Statement) :
    (ofStatement s).aggregate function type? = ofStatement <$> s.aggregate function type? := by
  have same : (ofStatement s).limitsRows = s.limitsRows := rfl
  simp only [aggregate, Statement.aggregate, same, nestedIf_ofStatement, operand_ofStatement,
    bind_map_left, map_bind, map_pure]
  rfl

theorem take_ofStatement (count : Expr) (s : Statement) :
    (ofStatement s).take count = ofStatement <$> s.take count := by
  have limited : (do return { ← (ofStatement s).nestedIf (ofStatement s).top.isSome with
        top := some count } : Supply Draft) =
      ofStatement <$> (do return { ← s.nestedIf s.top.isSome with top := some count }) := by
    have same : (ofStatement s).top = s.top := rfl
    simp only [same, nestedIf_ofStatement, bind_map_left, map_bind, map_pure]
    rfl
  unfold take Statement.take
  cases number : s.rowNumber with
  | none =>
    have same : (ofStatement s).rowNumber = none := number
    simp only [same]
    exact limited
  | some rowNumber =>
    have same : (ofStatement s).rowNumber = some rowNumber := number
    cases start : s.rowOffset with
    | none =>
      have same' : (ofStatement s).rowOffset = none := start
      simp only [same, same']
      exact limited
    | some offset =>
      have same' : (ofStatement s).rowOffset = some offset := start
      simp only [same, same', map_pure]
      rfl

theorem skip_ofStatement (offset : Expr) (s : Statement) :
    (ofStatement s).skip offset = ofStatement <$> s.skip offset := by
  have same : (ofStatement s).limitsRows = s.limitsRows := rfl
  have numbered (s : Statement) : ({ ofStatement s with
      projection := some (.compound [⟨some Named.defaultName, s.projection⟩,
        ⟨some Statement.rowNumberName, .rowNumber (ofStatement s).numbering⟩])
      orderings := []
      shape := some (.sequence .object) } : Draft) = ofStatement s.numbered := rfl
  simp only [skip, Statement.skip, same, nestedIf_ofStatement, operand_ofStatement, lift_ok,
    numbered, nested_ofStatement, bind_map_left, pure_bind, map_bind, map_pure]
  rfl

theorem singleRow_ofStatement (rows : Int) (orDefault : Bool) (s : Statement) :
    (ofStatement s).singleRow rows orDefault = ofStatement <$> s.singleRow rows orDefault := by
  have same : (ofStatement s).top = s.top := rfl
  simp only [singleRow, Statement.singleRow, same, nestedIf_ofStatement, operand_ofStatement,
    bind_map_left, map_bind, map_pure]
  rfl

theorem distinct_ofStatement (s : Statement) :
    (ofStatement s).distinct = ofStatement <$> s.distinct := by
  have same : ((ofStatement s).top, (ofStatement s).rowNumber) = (s.top, s.rowNumber) := rfl
  simp only [distinct, Statement.distinct, (Prod.mk.inj same).1, (Prod.mk.inj same).2,
    nestedIf_ofStatement, bind_map_left, map_bind, map_pure]
  rfl

end Sql.Draft

namespace Query

open Method (Registry)
open Sql (Draft)

variable (registry : Registry) (scope : Scope)

/-- The clauses of a statement as a draft without a projection. -/
def Body.draft (body : Body) : Draft :=
  { tables := body.tables, condition := body.condition, orderings := body.orderings }

theorem Model.checked_of_prepareIn {registry : Registry} {scope : Scope} {m : Model}
    {s : Sql.Statement} {f f' : Fresh} (h : m.prepareIn registry scope f = .ok (s, f')) :
    ∃ t : Sql.Statement, t.checked = .ok s := by
  obtain ⟨main, clauses, yield, operators⟩ := m
  rw [Model.prepareIn] at h
  obtain ⟨⟨_, _⟩, _, -, h⟩ := Supply.bind_eq_ok.mp h
  obtain ⟨⟨_, _⟩, _, -, h⟩ := Supply.bind_eq_ok.mp h
  obtain ⟨_, _, -, h⟩ := Supply.bind_eq_ok.mp h
  obtain ⟨t, _, -, h⟩ := Supply.bind_eq_ok.mp h
  exact ⟨t, (Supply.lift_eq_ok.mp h).1⟩

/-- What is prepared is well formed, so it is a source as it stands. -/
theorem draftRows_eq (itemName : String) (e : Expr) :
    draftRows registry scope itemName e = prepareRows registry scope itemName e := by
  cases e with
  | subQuery m =>
    rw [draftRows, prepareRows]
    refine Supply.bind_congr fun s f f' prepared => ?_
    obtain ⟨t, checked⟩ := Model.checked_of_prepareIn prepared
    rw [Draft.freeze_asSource checked, Supply.lift_ok, pure_bind]
  | _ => simp only [draftRows, prepareRows]

theorem Source.draft_eq (body : Body) (source : Source) :
    source.draft registry scope body.draft =
      Prod.map id Body.draft <$> source.prepare registry scope body := by
  obtain ⟨itemName, itemType, rows⟩ := source
  simp only [Source.draft, Source.prepare, draftRows_eq, map_bind, map_pure]
  rfl

theorem Clause.draft_eq (body : Body) (clause : Clause) :
    clause.draft registry scope body.draft =
      Prod.map id Body.draft <$> clause.prepare registry scope body := by
  cases clause with
  | source added => rw [Clause.draft, Clause.prepare, Source.draft_eq]
  | keyJoin => rfl
  | groupJoin => rfl
  | _ =>
    simp only [Clause.draft, Clause.prepare, map_bind, map_pure]
    rfl

theorem draftClauses_eq (scope : Scope) (body : Body) (clauses : List Clause) :
    draftClauses registry scope body.draft clauses =
      Prod.map id Body.draft <$> prepareClauses registry scope body clauses := by
  induction clauses generalizing scope body with
  | nil => rfl
  | cons clause rest ih =>
    simp only [draftClauses, prepareClauses, Clause.draft_eq, bind_map_left, map_bind]
    exact congrArg _ (funext fun result => ih result.1 result.2)

theorem Yield.draft_eq (body : Body) (yield : Yield) :
    yield.draft registry scope body.draft =
      Draft.ofStatement <$> yield.prepare registry scope body := by
  cases yield with
  | select selector =>
    simp only [Yield.draft, Yield.prepare, map_bind, map_pure]
    rfl
  | group key element =>
    simp only [Yield.draft, Yield.prepare, map_bind, map_pure]
    rfl

theorem Operator.draft_eq (s : Sql.Statement) (operator : Operator) :
    operator.draft registry scope (Draft.ofStatement s) =
      Draft.ofStatement <$> operator.prepare registry scope s := by
  cases operator with
  | take limit => simp only [Operator.draft, Operator.prepare, Draft.take_ofStatement, map_bind]
  | skip offset => simp only [Operator.draft, Operator.prepare, Draft.skip_ofStatement, map_bind]
  | first => exact Draft.singleRow_ofStatement _ _ s
  | single => exact Draft.singleRow_ofStatement _ _ s
  | distinct => exact Draft.distinct_ofStatement s
  | other => rfl
  | _ => exact Draft.aggregate_ofStatement _ _ s

/-- Each operator finds a complete draft and leaves one. -/
theorem draftOperators_eq (s : Sql.Statement) (operators : List Operator) :
    draftOperators registry scope (Draft.ofStatement s) operators =
      Draft.ofStatement <$> prepareOperators registry scope s operators := by
  induction operators generalizing s with
  | nil => rfl
  | cons operator rest ih =>
    have same : (Draft.ofStatement s).requireSequence operator.name =
        s.requireSequence operator.name := rfl
    simp only [draftOperators, prepareOperators, same, Operator.draft_eq, bind_map_left, map_bind, ih]

/-- Preparing a query is preparing it on drafts, whether it succeeds or fails. -/
theorem Model.prepareIn_eq_draftIn (m : Model) :
    m.prepareIn registry scope = m.draftIn registry scope := by
  obtain ⟨main, clauses, yield, operators⟩ := m
  have empty : ({} : Draft) = Body.draft ⟨[], none, []⟩ := rfl
  simp only [Model.draftIn, Model.prepareIn, empty, Source.draft_eq, bind_map_left, Prod.map_fst,
    Prod.map_snd, id, draftClauses_eq, Yield.draft_eq, draftOperators_eq, Draft.freeze_ofStatement]

end Query

end Comprehension
