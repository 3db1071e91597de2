import Comprehension.Proofs.Acceptance
import Comprehension.Proofs.PreparedShapes
import Mathlib.Logic.Relation

/-!
What a statement says that it yields, before and after resolution. Resolution replaces projections
and patches the shape where their type has changed; the type of a shape is that of the projection in
every statement at any depth, and no source changes the form of its result. A statement in an
expression may be moved by the members that lead to it, so it is traced back to the statement that
it was made of.
-/
namespace Comprehension.Sql

namespace Node

/-- A property of statements, which is asked of no expression. -/
def OnStatements (P : Statement → Prop) : Node → Prop
  | .expression _ => True
  | .statement s => P s

variable {P : Statement → Prop} {n m root : Node}

theorem Typed.onStatements (h : n.Typed) : n.Everywhere (OnStatements Statement.Typed) := by
  refine Everywhere.mono h fun n typed => ?_
  cases n with
  | expression e => trivial
  | statement s => exact typed

theorem Inside.unnamed {e : Expr} (h : Inside root (.expression e)) :
    Inside root (.expression e.unnamed) := by
  cases e with
  | named inner =>
    obtain ⟨name, e⟩ := inner
    exact h.operand List.mem_cons_self
  | _ => exact h

/-- Slots and statements are parts, a projection with a name by way of its name. -/
theorem Inside.child (h : Inside root n) (hm : m ∈ n.children) : Inside root m := by
  cases n with
  | expression e =>
    cases e with
    | subStatement s => exact h.part hm
    | named | entityConstant | call => cases hm
    | _ =>
      obtain ⟨slot, hs, rfl⟩ := List.mem_map.mp hm
      exact h.operand (List.mem_map_of_mem hs)
  | statement s =>
    rcases List.mem_append.mp hm with hm | hm
    · obtain ⟨slot, hs, rfl⟩ := List.mem_map.mp hm
      rcases List.mem_cons.mp hs with rfl | hs
      · exact h.projection.unnamed
      · exact h.clause hs
    · obtain ⟨inner, hi, rfl⟩ := List.mem_map.mp hm
      obtain ⟨table, ht, nested⟩ := List.mem_filterMap.mp hi
      exact h.source ht nested

theorem Everywhere.inside {P : Node → Prop} (h : n.Everywhere P) (hn : Inside root n) :
    n.Everywhere (Inside root) := by
  induction h with
  | intro here below ih => exact .intro hn fun child hc => ih child hc (hn.child hc)

/-- What stands right below a node of a prepared statement: a slot or a statement, or the same node
without its name. -/
theorem Prepared.part_cases (h : n.unnamed.Prepared) (hm : m ∈ n.parts) :
    m.unnamed = n.unnamed ∨ m.unnamed ∈ n.unnamed.children := by
  have unnamed {e : Expr} (prepared : (Node.expression e).Prepared) :
      (Node.expression e).unnamed = .expression e := unnamed_of_kind prepared.ready_of_prepared.here.1
  cases n with
  | expression e =>
    have kind := h.here.1
    cases e with
    | subStatement s =>
      rw [List.mem_singleton.mp hm]
      exact .inr List.mem_cons_self
    | named inner =>
      obtain ⟨name, inner⟩ := inner
      rw [List.mem_singleton.mp hm]
      exact .inl (unnamed h)
    | entityConstant type value key => cases kind <;> contradiction
    | call c => cases kind <;> contradiction
    | _ =>
      obtain ⟨operand, ho, rfl⟩ := List.mem_map.mp hm
      obtain ⟨slot, hs, rfl⟩ := List.mem_map.mp ho
      rw [unnamed (Everywhere.slot h hs)]
      exact .inr (List.mem_map_of_mem hs)
  | statement s =>
    have unlinked : tableLinks s.tables = [] := h.here.1
    simp only [parts, unlinked, List.flatMap_nil, List.append_nil, List.cons_append, List.mem_cons,
      List.mem_append] at hm
    rcases hm with rfl | hm | hm
    · exact .inr List.mem_cons_self
    · obtain ⟨slot, hs, rfl⟩ := List.mem_map.mp hm
      have child : Node.expression slot.2 ∈ (Node.statement s).children :=
        List.mem_append_left _ (List.mem_map_of_mem (List.mem_cons_of_mem _ hs))
      rw [unnamed (Everywhere.child h child)]
      exact .inr child
    · obtain ⟨inner, hi, rfl⟩ := List.mem_map.mp hm
      exact .inr (List.mem_append_right _ (List.mem_map_of_mem hi))

/-- What holds throughout a prepared statement holds throughout everything inside it. -/
theorem Prepared.everywhere_inside {P : Node → Prop} (h : root.unnamed.Prepared)
    (everywhere : root.unnamed.Everywhere P) (hn : Inside root n) : n.unnamed.Everywhere P := by
  have both := Everywhere.and h everywhere
  have inside : n.unnamed.Everywhere fun n => IsPrepared n ∧ P n := by
    induction hn with
    | root => exact both
    | part inside part ih =>
      have prepared := ih.mono fun _ here => here.1
      rcases Prepared.part_cases prepared part with same | child
      · rw [same]
        exact ih
      · exact ih.child child
  exact inside.mono fun _ here => here.2

end Node

variable {schema : Schema} {native : Bool}

section Preserving

/-- Whether a rule keeps a property of statements throughout the trees that it is applied to. -/
def Preserves (P : Statement → Prop) : Judgement → Prop
  | .expression rows _ e tables _ e' _ _ | .fitted rows _ e tables _ e' _ _ =>
    PlainRows rows → (Node.expression e).Ready → Linked tables →
      (Node.expression e).Everywhere (Node.OnStatements P) →
      (Node.expression e').Everywhere (Node.OnStatements P)
  | .slots rows slots tables _ slots' _ _ =>
    PlainRows rows → (∀ slot ∈ slots, (Node.expression slot.2).Ready) → Linked tables →
      (∀ slot ∈ slots, (Node.expression slot.2).Everywhere (Node.OnStatements P)) →
      ∀ slot ∈ slots', (Node.expression slot.2).Everywhere (Node.OnStatements P)
  | .source rows source _ source' _ =>
    PlainRows rows → (∀ s, source.statement? = some s → (Node.statement s).Ready) →
      (∀ s, source.statement? = some s → (Node.statement s).Everywhere (Node.OnStatements P)) →
      ∀ s, source'.statement? = some s → (Node.statement s).Everywhere (Node.OnStatements P)
  | .tables rows tables _ tables' _ _ =>
    PlainRows rows → (∀ s ∈ sourceStatements tables, (Node.statement s).Ready) →
      (∀ s ∈ sourceStatements tables, (Node.statement s).Everywhere (Node.OnStatements P)) →
      ∀ s ∈ sourceStatements tables', (Node.statement s).Everywhere (Node.OnStatements P)
  | .statement rows s _ s' _ =>
    PlainRows rows → (Node.statement s).Ready →
      (Node.statement s).Everywhere (Node.OnStatements P) →
      (Node.statement s').Everywhere (Node.OnStatements P)

variable {P : Statement → Prop}

/-- What covers a tree has the property wherever the tree has it. -/
theorem Covers.onStatements {e e' : Expr} (h : Covers [.expression e] [.expression e'])
    (he : (Node.expression e).Everywhere (Node.OnStatements P)) :
    (Node.expression e').Everywhere (Node.OnStatements P) :=
  h _ (fun _ => trivial) (List.forall_mem_singleton.mpr he) _ List.mem_cons_self

variable {rows rows' : Rows} {position : Position} {tables tables₁ tables' : List Table}
  {f f₁ f' : Fresh}

theorem Preserves.binary {op : BinaryOp} {type : ValueType}
    {left right left₁ right₁ left₂ right₂ left₃ right₃ : Expr}
    (first : Resolved schema native (.fitted rows .value left tables f left₁ tables₁ f₁))
    (second : Resolved schema native (.fitted rows .value right tables₁ f₁ right₁ tables' f'))
    (compared : identities op left₁ right₁ = .ok (left₂, right₂))
    (leftFits : Expr.adapted native .singleValue left₂ = .ok left₃)
    (rightFits : Expr.adapted native .singleValue right₂ = .ok right₃)
    (ihFirst : Preserves P (.fitted rows .value left tables f left₁ tables₁ f₁))
    (ihSecond : Preserves P (.fitted rows .value right tables₁ f₁ right₁ tables' f')) :
    Preserves P (.expression rows position (.binary op left right type) tables f
      (.binary op left₃ right₃ type) tables' f') := by
  intro plain ready linked he
  have leftReady := ready.slot List.mem_cons_self
  have rightReady := ready.slot (List.mem_cons_of_mem _ List.mem_cons_self)
  obtain ⟨⟨leftSettled, -⟩, linked₁, -⟩ := first.settles plain leftReady linked
  obtain ⟨⟨rightSettled, -⟩, -, -⟩ := second.settles plain rightReady linked₁
  have left := ihFirst plain leftReady linked (he.slot List.mem_cons_self)
  have right := ihSecond plain rightReady linked₁
    (he.slot (List.mem_cons_of_mem _ List.mem_cons_self))
  have compared := Expr.covers_of_identities leftSettled.ready.here rightSettled.ready.here compared
  have fitted := Covers.cons (Expr.covers_of_adapted leftFits) (Expr.covers_of_adapted rightFits)
  refine (compared.trans fitted).trans (.binary _ _ _ _) _ (fun _ => trivial) ?_ _ List.mem_cons_self
  exact List.forall_mem_cons.mpr ⟨left, List.forall_mem_singleton.mpr right⟩

/-- A property that a statement keeps when it is resolved is kept by the statements in it as well. -/
theorem Resolved.preserves
    (step : ∀ {rows s f s' f'}, Resolved schema native (.statement rows s f s' f') →
      PlainRows rows → (Node.statement s).Ready → P s → P s')
    {j : Judgement} (h : Resolved schema native j) : Preserves P j := by
  induction h with
  | leaf => exact fun _ _ _ he => he
  | constant mapped =>
    intro _ _ _ he
    refine Covers.onStatements ?_ he
    rcases Schema.constant_eq_ok mapped with ⟨_, _, _, -, rfl⟩ | ⟨-, rfl⟩
    · exact .flat rfl
    · exact .flat rfl
  | tableReference found =>
    intro plain _ _ he
    obtain ⟨tableAlias, row⟩ := plain.of_lookup found
    exact Covers.onStatements row.covers he
  | member owner mapped again ihOwner ihAgain =>
    intro plain ready linked he
    have sourceReady := ready.slot List.mem_cons_self
    have kept := ihOwner plain sourceReady linked (he.slot List.mem_cons_self)
    obtain ⟨⟨settled, -⟩, linked₁, -⟩ := owner.settles plain sourceReady linked
    have found := (Expr.covers_of_memberOf settled.ready.here mapped).onStatements kept
    exact ihAgain plain (Expr.ready_of_memberOf settled mapped) linked₁ found
  | navigation followed =>
    intro _ _ linked he
    obtain ⟨-, target, exposed, -⟩ := Entity.navigate_eq_ok linked followed
    obtain ⟨tableAlias, -, row⟩ := Source.row_eq_ok exposed
    exact Covers.onStatements row.covers he
  | binary first second compared leftFits rightFits ihFirst ihSecond =>
    exact .binary first second compared leftFits rightFits ihFirst ihSecond
  | composite composite kind type isPredicate wording labels slots ih =>
    intro plain ready linked he
    have kept := ih plain (fun _ hs => ready.slot hs) linked fun _ hs => he.slot hs
    refine .ofSlots ?_ trivial kept
    rintro s rfl
    rw [← kind] at composite
    cases composite
  | named inner ih =>
    intro _ ready
    exact absurd rfl ready.here.1
  | subStatement inner ih =>
    intro plain ready _ he
    have kept := ih plain (ready.child List.mem_cons_self) (he.child List.mem_cons_self)
    exact .intro trivial (List.forall_mem_singleton.mpr kept)
  | fitted resolved fits ih =>
    intro plain ready linked he
    exact (Expr.covers_of_adapted fits).onStatements (ih plain ready linked he)
  | noSlot => exact fun _ _ _ he => he
  | slot first rest ihFirst ihRest =>
    intro plain ready linked he
    obtain ⟨firstReady, restReady⟩ := List.forall_mem_cons.mp ready
    obtain ⟨firstKept, restKept⟩ := List.forall_mem_cons.mp he
    obtain ⟨-, linked₁, -⟩ := first.settles plain firstReady linked
    exact List.forall_mem_cons.mpr
      ⟨ihFirst plain firstReady linked firstKept, ihRest plain restReady linked₁ restKept⟩
  | unresolvedSource mapped =>
    intro _ _ _ s hs
    obtain ⟨mapping, -, rfl, -⟩ := Mapping.source_eq_ok mapped
    cases hs
  | tableSource => exact fun _ _ he => he
  | statementSource inner ih =>
    intro plain ready he s hs
    rw [← Option.some.inj hs]
    exact ih plain (ready _ rfl) (he _ rfl)
  | noTable => exact fun _ _ he => he
  | table first exposed rest ihFirst ihRest =>
    intro plain ready he s hs
    obtain ⟨tableAlias, -, row⟩ := Source.row_eq_ok exposed
    rcases mem_sourceStatements_cons.mp hs with hs | hs
    · exact ihFirst plain (fun t ht => ready t (mem_sourceStatements_cons.mpr (.inl ht)))
        (fun t ht => he t (mem_sourceStatements_cons.mpr (.inl ht))) s hs
    · exact ihRest (List.forall_mem_cons.mpr ⟨⟨_, row⟩, plain⟩)
        (fun t ht => ready t (mem_sourceStatements_cons.mpr (.inr ht)))
        (fun t ht => he t (mem_sourceStatements_cons.mpr (.inr ht))) s hs
  | statement sources joins slots projection shape isDistinct condition ihSources ihSlots =>
    intro plain ready he
    have nestedReady := fun s hs =>
      ready.child (List.mem_append_right _ (List.mem_map_of_mem (a := s) hs))
    have nested := ihSources plain nestedReady fun s hs =>
      he.child (List.mem_append_right _ (List.mem_map_of_mem hs))
    have whole := step (.statement sources joins slots projection shape isDistinct condition) plain
      ready he.here
    obtain ⟨⟨rfl, rfl⟩, plain₁, linked₁, slotsReady⟩ := sources.slots_ready joins plain ready
    have expressions := ihSlots plain₁ slotsReady linked₁ fun slot hs =>
      he.child (List.mem_append_left _ (List.mem_map_of_mem hs))
    obtain ⟨fitted, -, bare⟩ := slots.settles plain₁ slotsReady linked₁
    refine .intro whole ?_
    rw [Statement.children_eq projection (fitted _ List.mem_cons_self).1 bare]
    exact List.forall_mem_append.mpr
      ⟨List.forall_mem_map.mpr expressions, List.forall_mem_map.mpr nested⟩

end Preserving

section Types

theorem Expr.type_renamed (projection e : Expr) : (projection.renamed e).type = e.type := by
  cases projection with
  | named n =>
    cases n
    rfl
  | _ => rfl

theorem Expr.type_unnamed (e : Expr) : e.unnamed.type = e.type := by
  cases e with
  | named n =>
    cases n
    rfl
  | _ => rfl

/-- An aggregate stays one of the same type. -/
theorem Resolved.aggregation {rows : Rows} {e e' : Expr} {tables tables' : List Table} {f f' : Fresh}
    (h : Resolved schema native (.fitted rows .value e tables f e' tables' f'))
    (kind : e.kind = .aggregation) : e'.kind = .aggregation ∧ e'.type = e.type := by
  cases h with
  | fitted resolved fits =>
    rename_i e₁
    have kept : e₁.kind = .aggregation ∧ e₁.type = e.type := by
      cases resolved with
      | leaf leaf =>
        rw [kind] at leaf
        cases leaf
      | composite composite kind' type => exact ⟨kind'.trans kind, type⟩
      | _ => cases kind
    have value : e₁.Fits native .value := by
      intro _
      have computed := kept.1
      cases e₁ with
      | aggregation => rfl
      | _ => cases computed
    have same := Except.ok.inj ((Expr.adapted_of_fits value).symm.trans fits)
    rw [← same]
    exact kept

/-- A statement that is typed is typed once it is resolved. -/
theorem Resolved.typed {rows : Rows} {s s' : Statement} {f f' : Fresh}
    (h : Resolved schema native (.statement rows s f s' f')) (plain : PlainRows rows)
    (ready : (Node.statement s).Ready) (typed : s.Typed) : s'.Typed := by
  have settled := h.settles plain ready
  cases h with
  | @statement _ _ _ _ _ _ _ _ root _ _ sources joins slots projection shape isDistinct condition =>
    obtain ⟨shaped, computed⟩ := typed
    cases slots with
    | slot first rest =>
      have type : s'.projection.type = root.type := by rw [projection, Expr.type_renamed]
      have aggregate (scalar : ∃ type, s.shape = .scalar type) :
          root.kind = .aggregation ∧ s'.projection.type = s.projection.type := by
        obtain ⟨scalarType, scalar⟩ := scalar
        obtain ⟨kind, same⟩ := first.aggregation (computed scalarType scalar)
        exact ⟨kind, type.trans (same.trans s.projection.type_unnamed)⟩
      by_cases same : s'.projection.type = s.projection.type
      · rw [if_pos same] at shape
        refine ⟨?_, fun scalarType scalar => ?_⟩
        · rw [Statement.Shaped, shape, same]
          exact shaped
        · have kind := (aggregate ⟨scalarType, shape.symm.trans scalar⟩).1
          have unnamed : root.kind ≠ .named := by simp [kind]
          rw [projection, Expr.unnamed_renamed unnamed]
          exact kind
      · -- The type has changed, so no aggregate is selected.
        rw [if_neg same] at shape
        cases before : s.shape with
        | scalar scalarType => exact absurd (aggregate ⟨scalarType, before⟩).2 same
        | sequence | singleValue =>
          rw [before] at shape
          refine ⟨by rw [Statement.Shaped, shape]; rfl, fun scalarType scalar => ?_⟩
          rw [shape] at scalar
          cases scalar

end Types

section Forms

def Node.formAt (path : List Nat) : Node → Option Shape.Form
  | .expression _ => none
  | .statement s => s.formAt path

/-- What one pass of resolution makes of a statement. -/
def Pass (schema : Schema) (native : Bool) (s s' : Statement) : Prop :=
  ∃ rows f f', Resolved schema native (.statement rows s f s' f')

/-- The form of the statement that is reached from one of some tables. -/
def formIn (tables : List Table) (index : Nat) (path : List Nat) : Option Shape.Form :=
  (tables[index]?).bind fun table => table.source.statement?.bind fun inner => inner.formAt path

theorem formIn_eq_of_bare {tables tables' : List Table}
    (h : tables'.map Table.bare = tables.map Table.bare) (index : Nat) (path : List Nat) :
    formIn tables' index path = formIn tables index path := by
  have bare (tables : List Table) : formIn tables index path =
      ((tables.map Table.bare)[index]?).bind fun table =>
        table.2.1.statement?.bind fun inner => inner.formAt path := by
    rw [List.getElem?_map, Option.bind_map]
    rfl
  rw [bare, bare, h]

/-- Whether a rule keeps the forms of sources. -/
def KeepsForms : Judgement → Prop
  | .source rows source _ source' _ =>
    PlainRows rows → (∀ s, source.statement? = some s → (Node.statement s).Ready) →
      ∀ path, (source'.statement?.bind fun inner => inner.formAt path) =
        source.statement?.bind fun inner => inner.formAt path
  | .tables rows tables _ tables' _ _ =>
    PlainRows rows → (∀ s ∈ sourceStatements tables, (Node.statement s).Ready) →
      ∀ index path, formIn tables' index path = formIn tables index path
  | .statement rows s _ s' _ =>
    PlainRows rows → (Node.statement s).Ready → ∀ path, s'.formAt path = s.formAt path
  | _ => True

theorem Resolved.keepsForms {j : Judgement} (h : Resolved schema native j) : KeepsForms j := by
  induction h with
  | unresolvedSource mapped =>
    intro _ _ path
    obtain ⟨mapping, -, rfl, -⟩ := Mapping.source_eq_ok mapped
    rfl
  | tableSource => exact fun _ _ _ => rfl
  | statementSource inner ih => exact fun plain ready path => ih plain (ready _ rfl) path
  | noTable => exact fun _ _ _ _ => rfl
  | table first exposed rest ihFirst ihRest =>
    intro plain ready index path
    obtain ⟨tableAlias, -, row⟩ := Source.row_eq_ok exposed
    cases index with
    | zero =>
      exact ihFirst plain (fun s hs => ready s (mem_sourceStatements_cons.mpr (.inl hs))) path
    | succ index =>
      exact ihRest (List.forall_mem_cons.mpr ⟨⟨_, row⟩, plain⟩)
        (fun s hs => ready s (mem_sourceStatements_cons.mpr (.inr hs))) index path
  | @statement _ s _ _ _ _ _ _ _ s' _ sources joins slots projection shape _ _ ihSources _ =>
    intro plain ready path
    have nestedReady := fun s hs =>
      ready.child (List.mem_append_right _ (List.mem_map_of_mem (a := s) hs))
    obtain ⟨⟨rfl, rfl⟩, plain₁, linked₁, slotsReady⟩ := sources.slots_ready joins plain ready
    obtain ⟨-, -, bare⟩ := slots.settles plain₁ slotsReady linked₁
    cases path with
    | nil =>
      have form : s'.shape.form = s.shape.form := by
        rw [shape]
        split
        · rfl
        · exact Shape.form_withRowType _ _
      exact congrArg some form
    | cons index path =>
      have sourcesKept := ihSources plain nestedReady index path
      exact (formIn_eq_of_bare bare index path).trans sourcesKept
  | _ => trivial

end Forms

end Comprehension.Sql

namespace Comprehension.Query.Model

open Method.Registry (defaults)
open Sql (Node PlainRows Shape Statement)

variable {m : Model} {t : Statement} {f₀ f₁ : Fresh}

/-- At any depth of a prepared statement, and of what it is resolved to, the type of a shape is that
of the projection. Resolution keeps the form of the whole and of every source below it. A statement
at any depth comes, by passes of resolution, from one that was there before, and has the forms of
that one, itself and its sources. -/
theorem shapes_typed (h : m.prepare defaults f₀ = .ok (t, f₁)) :
    (∀ inner, Node.Inside (.statement t) (.statement inner) → inner.Shaped) ∧
      ∀ schema native s f, t.resolve (Mapping.ofSchema schema) native f₁ = .ok (s, f) →
        (∀ inner, Node.Inside (.statement s) (.statement inner) → inner.Shaped) ∧
        (∀ path, s.formAt path = t.formAt path) ∧
        ∀ inner, Node.Inside (.statement s) (.statement inner) →
          ∃ before, Node.Inside (.statement t) (.statement before) ∧
            Relation.ReflTransGen (Sql.Pass schema native) before inner ∧
            ∀ path, inner.formAt path = before.formAt path := by
  have prepared := (ground_of_prepare h).prepared _ List.mem_cons_self
  have ready := prepared.ready_of_prepared
  have typed := (m.drafted_of_prepareIn (List.forall_mem_nil _) h).whole.onStatements
  have before {P : Node → Prop} (everywhere : (Node.statement t).Everywhere P) {inner : Statement}
      (inside : Node.Inside (.statement t) (.statement inner)) :
      P (.statement inner) := by
    have unnamed : (Node.statement t).unnamed.Prepared := prepared
    exact (unnamed.everywhere_inside everywhere inside).here
  refine ⟨fun inner inside => (before typed inside).shaped, ?_⟩
  intro schema native s f resolved
  have compiled : m.statement defaults (Mapping.ofSchema schema) { nativeBoolean? := some native } f₀ =
      .ok (s, f) := Supply.bind_eq_ok.mpr ⟨t, f₁, h, resolved⟩
  have rules := Statement.resolved_of_resolve resolved
  have nowhere : PlainRows [] := List.forall_mem_nil _
  have after {P : Statement → Prop}
      (everywhere : (Node.statement s).Everywhere (Node.OnStatements P)) {inner : Statement}
      (inside : Node.Inside (.statement s) (.statement inner)) : P inner :=
    ((mapped_of_statement compiled).everywhere_inside (fun _ => trivial) everywhere inside).here
  refine ⟨fun inner inside => ?_, rules.keepsForms nowhere ready, fun inner inside => ?_⟩
  · have kept := rules.preserves Sql.Resolved.typed nowhere ready typed
    exact (after kept inside).shaped
  · -- Every statement that was there before has its own forms, and a resolved one keeps them.
    let Foreseen (s : Statement) : Prop := ∃ before, Node.Inside (.statement t) (.statement before) ∧
      Relation.ReflTransGen (Sql.Pass schema native) before s ∧
      ∀ path, s.formAt path = before.formAt path
    have foreseen : (Node.statement t).Everywhere (Node.OnStatements Foreseen) := by
      refine (prepared.inside .root).mono fun n inside => ?_
      cases n with
      | expression e => trivial
      | statement before => exact ⟨before, inside, .refl, fun _ => rfl⟩
    have kept := rules.preserves (P := Foreseen)
      (fun {rows _ f _ f'} h plain ready ⟨before, inside, passes, forms⟩ =>
        ⟨before, inside, passes.tail ⟨rows, f, f', h⟩,
          fun path => (h.keepsForms plain ready path).trans (forms path)⟩) nowhere ready foreseen
    exact after kept inside

/-- The number of the first cook after the first one, taken as a wide number by the query, with the
count of the kitchens as another source, if the cooks after the first one are fewer. -/
def laterNumber : Model :=
  let later : Model :=
    { main := .table "c" "Cook"
      clauses := []
      yield := .select (.member (.item "c" (.entity "Cook")) "ID" .int64)
      operators := [.skip (.constant (.int 1) .int32)] }
  let kitchens : Model := (Model.ofSource (.table "k" "Kitchen")).withOperator .count
  let counted : Model := (Model.ofSource ⟨"l", .int64, .subQuery later⟩).withOperator .count
  { main := ⟨"n", .int64, .subQuery later⟩
    clauses :=
      [.source ⟨"total", .int32, .subQuery kitchens⟩,
       .filter (.binary .greaterThan (.item "n" .int64) (.subQuery counted) .boolean)]
    yield := .select (.item "n" .int64)
    operators := [.first true] }

theorem laterNumber_typed :
    ∃ t f₁ s f, laterNumber.prepare defaults {} = .ok (t, f₁) ∧
      t.resolve (Mapping.ofSchema .restaurant) false f₁ = .ok (s, f) ∧
      t.shape = .singleValue .int64 true ∧ s.shape = .singleValue .int32 true ∧
      [[], [0], [0, 0], [1], [1, 0]].map (fun path => s.formAt path) =
        [some (.singleValue true), some .sequence, some .sequence, some .scalar, none] ∧
      (∀ inner, Node.Inside (.statement s) (.statement inner) → inner.Shaped) ∧
      (∀ path, s.formAt path = t.formAt path) ∧
      ∃ counted before, Node.Inside (.statement s) (.statement counted) ∧
        Node.Inside (.statement t) (.statement before) ∧
        Relation.ReflTransGen (Sql.Pass .restaurant false) before counted ∧
        counted.formAt [] = some .scalar ∧ before.formAt [] = some .scalar ∧
        counted.formAt [0] = some .sequence ∧ before.formAt [0] = some .sequence := by
  have shapes : (laterNumber.prepare defaults {}).toOption.any (fun before =>
      (before.1.resolve (Mapping.ofSchema .restaurant) false before.2).toOption.any fun after =>
        decide (before.1.shape = .singleValue .int64 true) &&
          (decide (after.1.shape = .singleValue .int32 true) &&
            (decide ([[], [0], [0, 0], [1], [1, 0]].map (fun path => after.1.formAt path) =
              [some (.singleValue true), some .sequence, some .sequence, some .scalar, none]) &&
              (((Node.statement after.1).parts.flatMap Node.parts).flatMap Node.parts).any fun n =>
                decide (n.formAt [] = some .scalar) && decide (n.formAt [0] = some .sequence)))) =
      true := by
    decide +kernel
  obtain ⟨⟨t, f₁⟩, prepared, resolves⟩ := Outcome.exists_of_any shapes
  obtain ⟨⟨s, f⟩, resolved, shapes⟩ := Outcome.exists_of_any resolves
  simp only [Bool.and_eq_true, decide_eq_true_eq, List.any_eq_true] at shapes
  obtain ⟨wide, narrow, forms, n, below, whole, source⟩ := shapes
  obtain ⟨shaped, kept, traced⟩ := (shapes_typed prepared).2 _ _ _ _ resolved
  obtain ⟨operand, compared, below⟩ := List.mem_flatMap.mp below
  obtain ⟨condition, clause, compared⟩ := List.mem_flatMap.mp compared
  have inside := ((Node.Inside.root.part clause).part compared).part below
  cases n with
  | expression e => cases whole
  | statement counted =>
    obtain ⟨before, foreseen, passes, same⟩ := traced counted inside
    exact ⟨t, f₁, s, f, prepared, resolved, wide, narrow, forms, shaped, kept, counted, before,
      inside, foreseen, passes, whole, (same []).symm.trans whole, source,
      (same [0]).symm.trans source⟩

end Comprehension.Query.Model
