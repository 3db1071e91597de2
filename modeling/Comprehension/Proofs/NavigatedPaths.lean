import Comprehension.Proofs.JoinListing
import Comprehension.Proofs.ResultShapes
import Mathlib.Data.List.Induction

/-!
The joins of resolved statements mirror the members that resolution has followed. Each join stands
at the end of a path that was followed from a table of the statement, each path that was followed
ends at a join, and paths share an alias only if they are the same.
-/
namespace Comprehension.Sql

/-- A resolution follows a member of an entity and gets to a row, by a rule itself or by one that it
draws on. Statements inside the statement are resolved with tables of their own. -/
inductive Follows (schema : Schema) (native : Bool) (e : Entity) (member : String) (row : Expr) :
    Judgement → Prop where
  | navigation {rows position type tables f tables' f'}
      (followed : e.navigate (Mapping.ofSchema schema) member tables f = .ok ((row, tables'), f')) :
      Follows schema native e member row
        (.expression rows position (.navigation e member type) tables f row tables' f')
  | owner {rows position source name type found tables f source' tables₁ f₁ e' tables' f'}
      (owner : Resolved schema native (.fitted rows .value source tables f source' tables₁ f₁))
      (followed : Follows schema native e member row
        (.fitted rows .value source tables f source' tables₁ f₁))
      (mapped : source'.memberOf schema name = .ok found)
      (again : Resolved schema native (.expression rows position found tables₁ f₁ e' tables' f')) :
      Follows schema native e member row
        (.expression rows position (.member source name type) tables f e' tables' f')
  | again {rows position source name type found tables f source' tables₁ f₁ e' tables' f'}
      (owner : Resolved schema native (.fitted rows .value source tables f source' tables₁ f₁))
      (mapped : source'.memberOf schema name = .ok found)
      (followed : Follows schema native e member row
        (.expression rows position found tables₁ f₁ e' tables' f')) :
      Follows schema native e member row
        (.expression rows position (.member source name type) tables f e' tables' f')
  | left {rows position op left right type tables f left₁ tables₁ f₁ right₁ tables' f' e'}
      (first : Resolved schema native (.fitted rows .value left tables f left₁ tables₁ f₁))
      (followed : Follows schema native e member row
        (.fitted rows .value left tables f left₁ tables₁ f₁))
      (second : Resolved schema native (.fitted rows .value right tables₁ f₁ right₁ tables' f')) :
      Follows schema native e member row
        (.expression rows position (.binary op left right type) tables f e' tables' f')
  | right {rows position op left right type tables f left₁ tables₁ f₁ right₁ tables' f' e'}
      (first : Resolved schema native (.fitted rows .value left tables f left₁ tables₁ f₁))
      (followed : Follows schema native e member row
        (.fitted rows .value right tables₁ f₁ right₁ tables' f')) :
      Follows schema native e member row
        (.expression rows position (.binary op left right type) tables f e' tables' f')
  | composite {rows position whole tables f whole' tables' f'}
      (composite : whole.kind.isComposite = true)
      (followed : Follows schema native e member row
        (.slots rows whole.slots tables f whole'.slots tables' f')) :
      Follows schema native e member row (.expression rows position whole tables f whole' tables' f')
  | named {rows position name whole tables f whole' tables' f'}
      (followed : Follows schema native e member row
        (.fitted rows position whole tables f whole' tables' f')) :
      Follows schema native e member row
        (.expression rows position (.named ⟨name, whole⟩) tables f (.named ⟨name, whole'⟩) tables' f')
  | fitted {rows position whole tables f e₁ tables' f' e'}
      (followed : Follows schema native e member row
        (.expression rows position whole tables f e₁ tables' f')) :
      Follows schema native e member row (.fitted rows position whole tables f e' tables' f')
  | first {rows position whole slots tables f e' tables₁ f₁ slots' tables' f'}
      (first : Resolved schema native (.fitted rows position whole tables f e' tables₁ f₁))
      (followed : Follows schema native e member row
        (.fitted rows position whole tables f e' tables₁ f₁))
      (rest : Resolved schema native (.slots rows slots tables₁ f₁ slots' tables' f')) :
      Follows schema native e member row
        (.slots rows ((position, whole) :: slots) tables f ((position, e') :: slots') tables' f')
  | rest {rows position whole slots tables f e' tables₁ f₁ slots' tables' f'}
      (first : Resolved schema native (.fitted rows position whole tables f e' tables₁ f₁))
      (followed : Follows schema native e member row
        (.slots rows slots tables₁ f₁ slots' tables' f')) :
      Follows schema native e member row
        (.slots rows ((position, whole) :: slots) tables f ((position, e') :: slots') tables' f')
  | statement {rows s f tables₁ rows₁ f₁ tables₂ f₂ root s' f'}
      (sources : Resolved schema native (.tables rows s.tables f tables₁ rows₁ f₁))
      (joins : resolveTableJoins (Mapping.ofSchema schema) tables₁ f₁ = .ok (tables₂, f₂))
      (followed : Follows schema native e member row
        (.slots rows₁ s.slots tables₂ f₂ ((.value, root) :: s'.clauses) s'.tables f')) :
      Follows schema native e member row (.statement rows s f s' f')

variable {schema : Schema} {native : Bool}

section Runs

def Judgement.steps (schema : Schema) (native : Bool) (j : Judgement) (start member target : String) :
    Prop :=
  ∃ e e' : Entity, Follows schema native e member (.entity e') j ∧ e.tableAlias = start ∧
    e'.tableAlias = target

theorem Grown.within {tables tables' : List Table} {j j' : Judgement}
    (h : Grown (j.steps schema native) tables tables')
    (sub : ∀ {e member row}, Follows schema native e member row j →
      Follows schema native e member row j') : Grown (j'.steps schema native) tables tables' :=
  h.mono fun ⟨e, e', followed, start, target⟩ => ⟨e, e', sub followed, start, target⟩

def Grows (schema : Schema) (native : Bool) (j : Judgement) : Prop :=
  match j with
  | .expression rows _ e tables _ _ tables' _ | .fitted rows _ e tables _ _ tables' _ =>
    PlainRows rows → (Node.expression e).Ready → (∀ table ∈ tables, table.Hung) →
      Grown (j.steps schema native) tables tables'
  | .slots rows slots tables _ _ tables' _ =>
    PlainRows rows → (∀ slot ∈ slots, (Node.expression slot.2).Ready) →
      (∀ table ∈ tables, table.Hung) → Grown (j.steps schema native) tables tables'
  | _ => True

/-- Along a resolution paths only grow, and only by members that it follows. -/
theorem Resolved.grows {j : Judgement} (h : Resolved schema native j) : Grows schema native j := by
  induction h with
  | leaf | constant | tableReference => exact fun _ _ hung => .refl hung
  | member owner mapped again ihOwner ihAgain =>
    intro plain ready hung
    have sourceReady := ready.slot List.mem_cons_self
    obtain ⟨⟨settled, -⟩, -, -⟩ := owner.settles plain sourceReady (linked_of_hung hung)
    -- What the member stands for is resolved with the joins that its owner has left.
    have first := ihOwner plain sourceReady hung
    have second := ihAgain plain (Expr.ready_of_memberOf settled mapped) first.hung
    exact (first.within fun followed => .owner owner followed mapped again).trans
      (second.within fun followed => .again owner mapped followed)
  | navigation followed =>
    intro _ _ hung
    obtain ⟨target, rfl, -, grown⟩ := Entity.navigate_leads hung followed
    refine grown.mono fun ⟨start, through, led⟩ => ?_
    rw [start, through, led]
    exact ⟨_, target, .navigation followed, rfl, rfl⟩
  | binary first second compared leftFits rightFits ihFirst ihSecond =>
    intro plain ready hung
    have left := ihFirst plain (ready.slot List.mem_cons_self) hung
    have right := ihSecond plain (ready.slot (List.mem_cons_of_mem _ List.mem_cons_self)) left.hung
    exact (left.within fun followed => .left first followed second).trans
      (right.within (.right first))
  | composite composite kind type isPredicate wording labels slots ih =>
    intro plain ready hung
    exact (ih plain (fun _ hs => ready.slot hs) hung).within (.composite composite)
  | named inner ih =>
    intro _ ready
    exact absurd rfl ready.here.1
  | subStatement => exact fun _ _ hung => .refl hung
  | fitted resolved fits ih => exact fun plain ready hung => (ih plain ready hung).within .fitted
  | noSlot => exact fun _ _ hung => .refl hung
  | slot first rest ihFirst ihRest =>
    intro plain ready hung
    obtain ⟨firstReady, restReady⟩ := List.forall_mem_cons.mp ready
    have grown := ihFirst plain firstReady hung
    exact (grown.within fun followed => .first first followed rest).trans
      ((ihRest plain restReady grown.hung).within (.rest first))
  | _ => trivial

theorem Resolved.tableAlias_source {rows : Rows} {source source' : Source} {f f' : Fresh}
    (h : Resolved schema native (.source rows source f source' f')) :
    source.tableAlias? = none ∨ source'.tableAlias? = source.tableAlias? := by
  cases h with
  | unresolvedSource => exact .inl rfl
  | tableSource => exact .inr rfl
  | statementSource => exact .inr rfl

/-- A table without an alias has no joins, so that getting one adds no path but the empty one. -/
theorem Table.Hung.aliasAt_source {key : Nat} {source source' : Source} {kind : JoinKind}
    {joins : List Join} (hung : Table.Hung ⟨key, source, kind, joins⟩)
    (named : source.tableAlias? = none ∨ source'.tableAlias? = source.tableAlias?)
    (others others' : List Table) :
    Table.Hung ⟨key, source', kind, joins⟩ ∧
      ∀ {path a},
        (aliasAt (⟨key, source, kind, joins⟩ :: others) 0 path = some a →
          aliasAt (⟨key, source', kind, joins⟩ :: others') 0 path = some a) ∧
        (path ≠ [] → aliasAt (⟨key, source', kind, joins⟩ :: others') 0 path = some a →
          aliasAt (⟨key, source, kind, joins⟩ :: others) 0 path = some a) := by
  simp only [aliasAt_zero]
  rcases named with unnamed | same
  · have empty : joins = [] := by
      rcases hung with empty | ⟨own, named, -⟩
      · exact empty
      · cases named.symm.trans unnamed
    refine ⟨.inl empty, fun {path a} => ⟨fun ha => ?_, fun more ha => ?_⟩⟩
    · rw [unnamed] at ha
      cases ha
    · obtain ⟨own, -, ha⟩ := Option.bind_eq_some_iff.mp ha
      obtain ⟨member, path, rfl⟩ := List.exists_cons_of_ne_nil more
      rw [empty] at ha
      cases ha
  · rw [same]
    refine ⟨hung.imp_right fun ⟨own, named, hangs⟩ => ⟨own, same.trans named, hangs⟩, ?_⟩
    exact ⟨id, fun _ => id⟩

/-- Sources get aliases where they had none, and no joins. -/
theorem Resolved.aliasAt_tables {rows rows' : Rows} {tables tables' : List Table} {f f' : Fresh}
    (h : Resolved schema native (.tables rows tables f tables' rows' f'))
    (hung : ∀ table ∈ tables, table.Hung) :
    (∀ table ∈ tables', table.Hung) ∧
      ∀ {index path a},
        (aliasAt tables index path = some a → aliasAt tables' index path = some a) ∧
        (path ≠ [] → aliasAt tables' index path = some a → aliasAt tables index path = some a) := by
  induction tables generalizing rows f tables' with
  | nil =>
    cases h
    exact ⟨hung, id, fun _ => id⟩
  | cons table others ih =>
    obtain ⟨firstHung, othersHung⟩ := List.forall_mem_cons.mp hung
    cases h with
    | table first exposed rest =>
      obtain ⟨firstHung', firstPaths⟩ := firstHung.aliasAt_source first.tableAlias_source others _
      obtain ⟨othersHung', othersPaths⟩ := ih rest othersHung
      refine ⟨List.forall_mem_cons.mpr ⟨firstHung', othersHung'⟩, fun {index path a} => ?_⟩
      cases index with
      | zero => exact firstPaths
      | succ index =>
        rw [aliasAt_succ, aliasAt_succ]
        exact othersPaths

/-- What a resolution gets to is the end of a path through the tables that it leaves. -/
def Reaches (e : Entity) (member : String) (row : Expr) : Judgement → Prop
  | .expression rows _ whole tables _ _ tables' _ | .fitted rows _ whole tables _ _ tables' _ =>
    PlainRows rows → (Node.expression whole).Ready → (∀ table ∈ tables, table.Hung) →
      ∃ e' : Entity, row = .entity e' ∧ Leads tables' e.tableAlias member e'.tableAlias
  | .slots rows slots tables _ _ tables' _ =>
    PlainRows rows → (∀ slot ∈ slots, (Node.expression slot.2).Ready) →
      (∀ table ∈ tables, table.Hung) →
      ∃ e' : Entity, row = .entity e' ∧ Leads tables' e.tableAlias member e'.tableAlias
  | .statement rows s _ s' _ =>
    PlainRows rows → (Node.statement s).Ready → (∀ table ∈ s.tables, table.Hung) →
      ∃ e' : Entity, row = .entity e' ∧ Leads s'.tables e.tableAlias member e'.tableAlias
  | _ => True

theorem Follows.reaches {e : Entity} {member : String} {row : Expr} {j : Judgement}
    (h : Follows schema native e member row j) : Reaches e member row j := by
  have onward {tables tables' : List Table} {follows : String → String → String → Prop}
      (h : ∃ e' : Entity, row = .entity e' ∧ Leads tables e.tableAlias member e'.tableAlias)
      (grown : Grown follows tables tables') :
      ∃ e' : Entity, row = .entity e' ∧ Leads tables' e.tableAlias member e'.tableAlias := by
    obtain ⟨e', same, leads⟩ := h
    exact ⟨e', same, leads.mono grown.kept⟩
  induction h with
  | navigation followed =>
    intro _ _ hung
    obtain ⟨e', same, leads, -⟩ := Entity.navigate_leads hung followed
    exact ⟨e', same, leads⟩
  | owner owner followed mapped again ih =>
    intro plain ready hung
    have sourceReady := ready.slot List.mem_cons_self
    obtain ⟨⟨settled, -⟩, -, -⟩ := owner.settles plain sourceReady (linked_of_hung hung)
    have first := owner.grows plain sourceReady hung
    exact onward (ih plain sourceReady hung)
      (again.grows plain (Expr.ready_of_memberOf settled mapped) first.hung)
  | again owner mapped followed ih =>
    intro plain ready hung
    have sourceReady := ready.slot List.mem_cons_self
    obtain ⟨⟨settled, -⟩, -, -⟩ := owner.settles plain sourceReady (linked_of_hung hung)
    exact ih plain (Expr.ready_of_memberOf settled mapped) (owner.grows plain sourceReady hung).hung
  | left first followed second ih =>
    intro plain ready hung
    have leftReady := ready.slot List.mem_cons_self
    have rightReady := ready.slot (List.mem_cons_of_mem _ List.mem_cons_self)
    exact onward (ih plain leftReady hung)
      (second.grows plain rightReady (first.grows plain leftReady hung).hung)
  | right first followed ih =>
    intro plain ready hung
    have leftReady := ready.slot List.mem_cons_self
    have rightReady := ready.slot (List.mem_cons_of_mem _ List.mem_cons_self)
    exact ih plain rightReady (first.grows plain leftReady hung).hung
  | composite composite followed ih =>
    exact fun plain ready hung => ih plain (fun _ hs => ready.slot hs) hung
  | named followed ih =>
    intro _ ready
    exact absurd rfl ready.here.1
  | fitted followed ih => exact ih
  | first first followed rest ih =>
    intro plain ready hung
    obtain ⟨firstReady, restReady⟩ := List.forall_mem_cons.mp ready
    exact onward (ih plain firstReady hung)
      (rest.grows plain restReady (first.grows plain firstReady hung).hung)
  | rest first followed ih =>
    intro plain ready hung
    obtain ⟨firstReady, restReady⟩ := List.forall_mem_cons.mp ready
    exact ih plain restReady (first.grows plain firstReady hung).hung
  | statement sources joins followed ih =>
    intro plain ready hung
    obtain ⟨⟨rfl, rfl⟩, plain₁, -, slotsReady⟩ := sources.slots_ready joins plain ready
    exact ih plain₁ slotsReady (sources.aliasAt_tables hung).1

end Runs

section Statements

/-- What passes of a resolution have made of a statement, and what they have followed on the way. A
statement that is a member of a compound is passed over again when the member is accessed. -/
inductive Passed (schema : Schema) (native : Bool) (before : Statement) :
    (Entity → String → Expr → Prop) → Statement → Prop where
  | start : Passed schema native before (fun _ _ _ => False) before
  | pass {followed rows s f s' f'} (earlier : Passed schema native before followed s)
      (resolved : Resolved schema native (.statement rows s f s' f')) :
      Passed schema native before
        (fun e member row => followed e member row ∨
          Follows schema native e member row (.statement rows s f s' f')) s'

structure Mirrors (followed : Entity → String → Expr → Prop) (tables : List Table) : Prop where
  hung : ∀ table ∈ tables, table.Hung
  led : ∀ {e member row}, followed e member row →
    ∃ e' : Entity, row = .entity e' ∧ Leads tables e.tableAlias member e'.tableAlias
  came : ∀ {index path member a}, aliasAt tables index (path ++ [member]) = some a →
    ∃ e e' : Entity, followed e member (.entity e') ∧
      aliasAt tables index path = some e.tableAlias ∧ e'.tableAlias = a

theorem mirrors_of_tableLinks {tables : List Table} (h : tableLinks tables = []) :
    Mirrors (fun _ _ _ => False) tables := by
  have empty (table : Table) (ht : table ∈ tables) : table.joins = [] := by
    have links := List.flatMap_eq_nil_iff.mp h table ht
    cases hj : table.joins with
    | nil => rfl
    | cons join rest =>
      have mem := Join.link_mem_joinLinks (hj ▸ List.mem_cons_self : join ∈ table.joins)
      rw [links] at mem
      cases mem
  refine ⟨fun table ht => .inl (empty table ht), False.elim, fun {index path member a} ha => ?_⟩
  obtain ⟨table, own, ht, -, ha⟩ := aliasAt_eq_some.mp ha
  rw [empty table (List.mem_of_getElem? ht)] at ha
  cases path <;> cases ha

theorem Mirrors.pass {followed : Entity → String → Expr → Prop} {rows : Rows} {s s' : Statement}
    {f f' : Fresh} (h : Mirrors followed s.tables)
    (resolved : Resolved schema native (.statement rows s f s' f')) (plain : PlainRows rows)
    (ready : (Node.statement s).Ready) :
    Mirrors (fun e member row => followed e member row ∨
      Follows schema native e member row (.statement rows s f s' f')) s'.tables := by
  have whole {e : Entity} {member : String} {row : Expr}
      (followed : Follows schema native e member row (.statement rows s f s' f')) :=
    followed.reaches plain ready h.hung
  cases resolved with
  | statement sources joins slots =>
    obtain ⟨⟨rfl, rfl⟩, plain₁, -, slotsReady⟩ := sources.slots_ready joins plain ready
    obtain ⟨hung, paths⟩ := sources.aliasAt_tables h.hung
    have grown := slots.grows plain₁ slotsReady hung
    have kept {index : Nat} {path : List String} {a : String}
        (ha : aliasAt s.tables index path = some a) : aliasAt s'.tables index path = some a :=
      grown.kept (paths.1 ha)
    refine ⟨grown.hung, fun either => ?_, fun {index path member a} ha => ?_⟩
    · rcases either with earlier | now
      · obtain ⟨e', same, leads⟩ := h.led earlier
        exact ⟨e', same, leads.mono kept⟩
      · exact whole now
    · rcases grown.new ha with ha | ⟨base, start, last, same, led, e, e', now, rfl, rfl⟩
      · obtain ⟨e, e', earlier, led, target⟩ := h.came (paths.2 (by simp) ha)
        exact ⟨e, e', .inl earlier, kept led, target⟩
      · obtain ⟨rfl, rfl⟩ := List.append_inj' same rfl |>.imp_right List.singleton_inj.mp
        exact ⟨e, e', .inr (.statement sources joins now), led, rfl⟩

/-- A path that was followed from a table: each member leads on from the alias that the members
before it have led to. -/
inductive Trail (followed : Entity → String → Expr → Prop) (tables : List Table) (index : Nat) :
    List String → String → Prop where
  | table {table : Table} {tableAlias : String} (here : tables[index]? = some table)
      (named : table.source.tableAlias? = some tableAlias) :
      Trail followed tables index [] tableAlias
  | step {path : List String} {member : String} {e e' : Entity}
      (trail : Trail followed tables index path e.tableAlias)
      (onward : followed e member (.entity e')) :
      Trail followed tables index (path ++ [member]) e'.tableAlias

theorem Mirrors.trail_iff {followed : Entity → String → Expr → Prop} {tables : List Table}
    (h : Mirrors followed tables) (nodup : (tableAliases tables).Nodup) {index : Nat}
    {path : List String} {a : String} :
    Trail followed tables index path a ↔ aliasAt tables index path = some a := by
  constructor
  · intro trail
    induction trail with
    | table here named => exact aliasAt_eq_some.mpr ⟨_, _, here, named, rfl⟩
    | step trail onward ih =>
      -- The member was followed from some path to the same alias, which is this one.
      obtain ⟨e', same, i, base, start, target⟩ := h.led onward
      obtain rfl := Expr.entity.inj same
      obtain ⟨rfl, rfl⟩ := aliasAt_injective nodup start ih
      exact target
  · intro ha
    induction path using List.reverseRecOn generalizing a with
    | nil =>
      obtain ⟨table, own, here, named, ha⟩ := aliasAt_eq_some.mp ha
      obtain rfl := Option.some.inj ha
      exact .table here named
    | append_singleton path member ih =>
      obtain ⟨e, e', onward, led, rfl⟩ := h.came ha
      exact .step (ih led) onward

end Statements

end Comprehension.Sql

namespace Comprehension.Query.Model

open Method.Registry (defaults)
open Sql

variable {schema : Schema} {native : Bool} {m : Model} {t s inner : Sql.Statement} {f₀ f₁ f : Fresh}

/-- In a resolved query, the joins of each statement at any depth hang off its tables and off each
other by keys of their own aliases, no two of one place through the same member. Their aliases are
the ends of the paths that were followed from the tables: every member that was followed goes on
from such a path, and two paths end at one alias only if they are the same. They are written in an
order in which each join starts from an alias that was introduced before it. -/
theorem joins_mirror_paths (prepared : m.prepare defaults f₀ = .ok (t, f₁))
    (resolved : t.resolve (Mapping.ofSchema schema) native f₁ = .ok (s, f))
    (inside : Node.Inside (.statement s) (.statement inner)) :
    (∀ table ∈ inner.tables, ∃ tableAlias, table.source.tableAlias? = some tableAlias ∧
        Hangs tableAlias table.joins ∧ Introduces [tableAlias] (joinLinks table.joins)) ∧
      (∃ before followed, Node.Inside (.statement t) (.statement before) ∧
        Passed schema native before followed inner ∧
        (∀ e member row, followed e member row → ∃ index path, ∃ e' : Entity, row = .entity e' ∧
          Trail followed inner.tables index path e.tableAlias ∧
          Trail followed inner.tables index (path ++ [member]) e'.tableAlias) ∧
        (∀ index path a,
          Trail followed inner.tables index path a ↔ aliasAt inner.tables index path = some a) ∧
        ∀ i j path other a b, Trail followed inner.tables i path a →
          Trail followed inner.tables j other b → (a = b ↔ i = j ∧ path = other)) ∧
      ∀ written nested pieces, inner.pieces written nested = .ok pieces →
        ∃ top projection items condition grouping orderings,
          pieces = statementPieces inner.isDistinct top projection items condition grouping orderings ∧
            List.Forall₂ (Table.Lists written) inner.tables items := by
  have ground := ground_of_prepare prepared
  have whole := ground.prepared _ List.mem_cons_self
  have ready := whole.ready_of_prepared
  have rules := Statement.resolved_of_resolve resolved
  have nowhere : PlainRows [] := List.forall_mem_nil _
  have compiled : m.statement defaults (Mapping.ofSchema schema) { nativeBoolean? := some native } f₀ =
      .ok (s, f) := Supply.bind_eq_ok.mpr ⟨t, f₁, prepared, resolved⟩
  have mapped := mapped_of_statement compiled
  have apart := Statement.apart_of_resolve ready (ground.apart _ List.mem_cons_self)
    (ground.issued _ List.mem_cons_self) resolved
  have nodup : (tableAliases inner.tables).Nodup :=
    (mapped.everywhere_inside (fun _ => trivial) apart inside).here.1
  -- A prepared statement has no joins yet, and each pass adds those that it follows.
  let Mirrored (s : Sql.Statement) : Prop := ∃ before followed,
    Node.Inside (.statement t) (.statement before) ∧ Passed schema native before followed s ∧
      Mirrors followed s.tables
  have start : (Node.statement t).Everywhere (Node.OnStatements Mirrored) := by
    refine (whole.and (whole.inside .root)).mono fun n here => ?_
    cases n with
    | expression e => trivial
    | statement before => exact ⟨before, _, here.2, .start, mirrors_of_tableLinks here.1.1⟩
  have passes := rules.preserves (P := Mirrored)
    (fun resolved plain ready ⟨before, followed, inside, passed, mirrors⟩ =>
      ⟨before, _, inside, .pass passed resolved, mirrors.pass resolved plain ready⟩) nowhere ready start
  obtain ⟨before, followed, foreseen, passed, mirrors⟩ : Mirrored inner :=
    (mapped.everywhere_inside (fun _ => trivial) passes inside).here
  have trails {index : Nat} {path : List String} {a : String} :
      Trail followed inner.tables index path a ↔ aliasAt inner.tables index path = some a :=
    mirrors.trail_iff nodup
  refine ⟨fun table ht => ?_, ⟨before, followed, foreseen, passed, fun e member row onward => ?_,
    fun _ _ _ => trails, fun i j path other a b first second => ?_⟩,
    fun written nested pieces => Sql.Statement.lists_of_pieces mirrors.hung⟩
  · obtain ⟨offer, here⟩ := mapped.inside inside
    obtain ⟨row, exposed⟩ := here.settled.here.2.2.1 table ht
    obtain ⟨tableAlias, named, -⟩ := Source.row_eq_ok exposed
    have hangs := (mirrors.hung table ht).hangs named
    exact ⟨tableAlias, named, hangs, hangs.introduces List.mem_cons_self⟩
  · obtain ⟨e', same, index, path, led, target⟩ := mirrors.led onward
    exact ⟨index, path, e', same, trails.mpr led, trails.mpr target⟩
  · constructor
    · rintro rfl
      exact aliasAt_injective nodup (trails.mp first) (trails.mp second)
    · rintro ⟨rfl, rfl⟩
      exact Option.some.inj ((trails.mp first).symm.trans (trails.mp second))

/-- Cooks who work in kitchens and learn from other cooks, and kitchens that are led by cooks. -/
def brigade : Schema :=
  ⟨[("Cook",
      { table := "CookTable", primaryKey := "ID"
        columns := [⟨"ID", none, .int32, false⟩, ⟨"FirstName", none, .string, false⟩,
          ⟨"KitchenID", none, .int32, false⟩, ⟨"MentorID", none, .int32, true⟩]
        relations := [("Kitchen", ⟨"Kitchen", "KitchenID", none⟩),
          ("Mentor", ⟨"Cook", "MentorID", none⟩)] }),
    ("Kitchen",
      { table := "KitchenTable", primaryKey := "ID"
        columns := [⟨"ID", none, .int32, false⟩, ⟨"Name", none, .string, true⟩,
          ⟨"ChefID", none, .int32, false⟩]
        relations := [("Chef", ⟨"Cook", "ChefID", none⟩)] })]⟩

def chefMentors : Model :=
  let cook : Expr := .item "c" (.entity "Cook")
  let kitchen : Expr := .member cook "Kitchen" (.entity "Kitchen")
  let chef : Expr := .member kitchen "Chef" (.entity "Cook")
  let mentor (e : Expr) : Expr := .member e "Mentor" (.entity "Cook")
  let firstName (e : Expr) : Expr := .member e "FirstName" .string
  { main := .table "c" "Cook"
    clauses := [.filter (.binary .equal (firstName (mentor cook)) (firstName chef) .boolean),
      .orderBy [⟨.member kitchen "Name" .string, .asc⟩]]
    yield := .select (firstName (mentor chef))
    operators := [] }

theorem chefMentors_mirrored :
    ∃ t f₁ s f pieces, chefMentors.prepare defaults {} = .ok (t, f₁) ∧
      t.resolve (Mapping.ofSchema brigade) false f₁ = .ok (s, f) ∧
      s.pieces false false = .ok pieces ∧
      [[], ["Mentor"], ["Kitchen"], ["Kitchen", "Chef"], ["Kitchen", "Chef", "Mentor"],
          ["Mentor", "Mentor"]].map (aliasAt s.tables 0) =
        [some "t0", some "t4", some "t1", some "t2", some "t3", none] ∧
      (∀ table ∈ s.tables, ∃ tableAlias, table.source.tableAlias? = some tableAlias ∧
        Hangs tableAlias table.joins ∧ Introduces [tableAlias] (joinLinks table.joins)) ∧
      (∃ before followed, Passed brigade false before followed s ∧
        Trail followed s.tables 0 ["Mentor"] "t4" ∧
        Trail followed s.tables 0 ["Kitchen", "Chef", "Mentor"] "t3") ∧
      ∃ top projection items condition grouping orderings,
        pieces = statementPieces s.isDistinct top projection items condition grouping orderings ∧
          List.Forall₂ (Table.Lists false) s.tables items := by
  have paths : (chefMentors.prepare defaults {}).toOption.any (fun before =>
      (before.1.resolve (Mapping.ofSchema brigade) false before.2).toOption.any fun after =>
        (after.1.pieces false false).toOption.any fun _ =>
          decide ([[], ["Mentor"], ["Kitchen"], ["Kitchen", "Chef"], ["Kitchen", "Chef", "Mentor"],
              ["Mentor", "Mentor"]].map (aliasAt after.1.tables 0) =
            [some "t0", some "t4", some "t1", some "t2", some "t3", none])) = true := by
    decide +kernel
  obtain ⟨⟨t, f₁⟩, prepared, paths⟩ := Outcome.exists_of_any paths
  obtain ⟨⟨s, f⟩, resolved, paths⟩ := Outcome.exists_of_any paths
  obtain ⟨pieces, written, paths⟩ := Outcome.exists_of_any paths
  have paths := of_decide_eq_true paths
  obtain ⟨hangs, ⟨before, followed, -, passed, -, trails, -⟩, lists⟩ :=
    joins_mirror_paths prepared resolved .root
  have ends := paths
  simp only [List.map_cons, List.cons.injEq] at ends
  exact ⟨t, f₁, s, f, pieces, prepared, resolved, written, paths, hangs,
    ⟨before, followed, passed, (trails _ _ _).mpr ends.2.1, (trails _ _ _).mpr ends.2.2.2.2.1⟩,
    lists _ _ _ written⟩

end Comprehension.Query.Model
