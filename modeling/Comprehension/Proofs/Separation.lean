import Comprehension.Proofs.Freshness
import Comprehension.Proofs.Settled

/-!
Aliases of statements inside each other. Resolution draws a fresh alias for each table and each
join, so the aliases of a statement stay distinct and differ from those of all statements in it.
-/
namespace Comprehension.Sql

namespace Node

def aliases : Node → List String
  | .expression _ => []
  | .statement s => s.aliases

/-- Whether all aliases of the statements in a tree have a property. -/
def Within (Q : String → Prop) (n : Node) : Prop := n.Everywhere fun n => ∀ a ∈ n.aliases, Q a

def IsApart : Node → Prop
  | .expression _ => True
  | .statement s =>
    s.aliases.Nodup ∧ ∀ child ∈ (Node.statement s).children, child.Within (· ∉ s.aliases)

/-- Whether the aliases of each statement in a tree are distinct, and used by no statement in it. -/
def Apart (n : Node) : Prop := n.Everywhere IsApart

theorem Within.mono {Q R : String → Prop} {n : Node} (h : n.Within Q) (hqr : ∀ a, Q a → R a) :
    n.Within R := Everywhere.mono h fun _ hn a ha => hqr a (hn a ha)

end Node

/-- Whether all statements in some trees are in other trees: a property of statements that holds
throughout the former holds throughout the latter. -/
def Covers (ns ns' : List Node) : Prop :=
  ∀ P : Node → Prop, (∀ e, P (.expression e)) → (∀ n ∈ ns, n.Everywhere P) →
    ∀ n ∈ ns', n.Everywhere P

/-- A step of a resolution: names are drawn, and tables get joins under names that are drawn. -/
structure Step (f : Fresh) (tables : List Table) (f' : Fresh) (tables' : List Table) : Prop where
  supply : f.Extends f'
  kept : ∀ a ∈ tableAliases tables, a ∈ tableAliases tables'
  grown : ∀ a ∈ tableAliases tables', a ∈ tableAliases tables ∨ f.New f' a

/-- Tables whose joins are mapped, with distinct aliases from the supply. -/
structure Tidy (f : Fresh) (tables : List Table) : Prop where
  linked : Linked tables
  nodup : (tableAliases tables).Nodup
  issued : ∀ a ∈ tableAliases tables, f.Issued a

/-- Whether a tree can stand in a statement with the tables. -/
def Clear (f : Fresh) (tables : List Table) (n : Node) : Prop :=
  n.Apart ∧ n.Within fun a => f.Issued a ∧ a ∉ tableAliases tables

/-- Whether the aliases in some trees come from other trees or have been drawn since. -/
def Derives (f f' : Fresh) (ns ns' : List Node) : Prop :=
  ∀ Q : String → Prop, (∀ n ∈ ns, n.Within Q) → ∀ n ∈ ns', n.Within fun a => Q a ∨ f.New f' a

variable {f f₁ f' : Fresh} {tables tables₁ tables' : List Table} {ns ns₁ ns' : List Node}

namespace Covers

theorem trans (h : Covers ns ns₁) (h' : Covers ns₁ ns') : Covers ns ns' :=
  fun P hp hn => h' P hp (h P hp hn)

theorem clear (h : Covers ns ns') (hc : ∀ n ∈ ns, Clear f tables n) :
    ∀ n ∈ ns', Clear f tables n := fun n hn =>
  ⟨h _ (fun _ => trivial) (fun n hn => (hc n hn).1) n hn,
    h _ (fun _ _ ha => nomatch ha) (fun n hn => (hc n hn).2) n hn⟩

theorem derives (h : Covers ns ns') : Derives f f ns ns' := fun _ hn n hn' =>
  Node.Within.mono (h _ (fun _ _ ha => nomatch ha) hn n hn') fun _ => .inl

/-- The slots of a node hold all statements in it. -/
theorem ofSlots {e : Expr} (h : ∀ s, e ≠ .subStatement s) :
    Covers (e.slots.map fun slot => .expression slot.2) [.expression e] := by
  intro P hp hn n mem
  obtain rfl := List.mem_singleton.mp mem
  exact .ofSlots h (hp e) fun slot hs => hn _ (List.mem_map_of_mem hs)

theorem slots (e : Expr) : Covers [.expression e] (e.slots.map fun slot => .expression slot.2) := by
  intro P _ hn n mem
  obtain ⟨slot, hs, rfl⟩ := List.mem_map.mp mem
  exact (hn _ List.mem_cons_self).slot hs

/-- A node without slots holds no statement. -/
theorem flat {e : Expr} (h : (Node.expression e).children = []) : Covers ns [.expression e] := by
  intro P hp _ n mem
  obtain rfl := List.mem_singleton.mp mem
  exact .intro (hp e) (by simp [h])

theorem binary (op : BinaryOp) (left right : Expr) (type : ValueType) :
    Covers [.expression left, .expression right] [.expression (.binary op left right type)] := by
  have h : Covers _ [.expression (.binary op left right type)] := .ofSlots (by simp)
  exact h

theorem wrap (s : Statement) : Covers [.statement s] [.expression (.subStatement s)] := by
  intro P hp hn n mem
  obtain rfl := List.mem_singleton.mp mem
  exact .intro (hp _) hn

theorem unwrap (s : Statement) : Covers [.expression (.subStatement s)] [.statement s] := by
  intro P _ hn n mem
  exact (hn _ List.mem_cons_self).child mem

theorem cons {n n' : Node} (h : Covers [n] [n']) (h' : Covers ns ns') :
    Covers (n :: ns) (n' :: ns') := by
  intro P hp hn
  obtain ⟨first, rest⟩ := List.forall_mem_cons.mp hn
  exact List.forall_mem_cons.mpr
    ⟨h P hp (by simpa using first) n' List.mem_cons_self, h' P hp rest⟩

end Covers

namespace Derives

theorem flat (h : Covers [] ns') : Derives f f' ns ns' := fun _ _ =>
  h _ (fun _ _ ha => nomatch ha) (by simp)

theorem trans (h : Derives f f₁ ns ns₁) (h' : Derives f₁ f' ns₁ ns') (before : f.Extends f₁)
    (after : f₁.Extends f') : Derives f f' ns ns' := by
  intro Q hn n hn'
  refine (h' _ (h Q hn) n hn').mono fun a ha => ?_
  rcases ha with (ha | ha) | ha
  · exact .inl ha
  · exact .inr (ha.mono (.refl _) after)
  · exact .inr (ha.mono before (.refl _))

theorem append {ms ms' : List Node} (h : Derives f f₁ ns ns') (h' : Derives f₁ f' ms ms')
    (before : f.Extends f₁) (after : f₁.Extends f') : Derives f f' (ns ++ ms) (ns' ++ ms') := by
  intro Q hn
  obtain ⟨first, rest⟩ := List.forall_mem_append.mp hn
  refine List.forall_mem_append.mpr ⟨fun n hn => ?_, fun n hn => ?_⟩
  · exact (h Q first n hn).mono fun a ha => ha.imp_right fun ha => ha.mono (.refl _) after
  · exact (h' Q rest n hn).mono fun a ha => ha.imp_right fun ha => ha.mono before (.refl _)

end Derives

namespace Step

theorem refl (f : Fresh) (tables : List Table) : Step f tables f tables :=
  ⟨.refl f, fun _ ha => ha, fun _ => .inl⟩

theorem trans (h : Step f tables f₁ tables₁) (h' : Step f₁ tables₁ f' tables') :
    Step f tables f' tables' := by
  refine ⟨h.supply.trans h'.supply, fun a ha => h'.kept a (h.kept a ha), fun a ha => ?_⟩
  rcases h'.grown a ha with ha | ha
  · exact (h.grown a ha).imp_right fun ha => ha.mono (.refl _) h'.supply
  · exact .inr (ha.mono h.supply (.refl _))

end Step

theorem Clear.intro {n : Node} (apart : n.Apart) (issued : n.Within f.Issued)
    (outside : n.Within (· ∉ tableAliases tables)) : Clear f tables n :=
  ⟨apart, (issued.and outside).mono fun _ h a ha => ⟨h.1 a ha, h.2 a ha⟩⟩

/-- What was clear before a step is clear after it. -/
theorem Clear.step {n : Node} (h : Clear f tables n) (step : Step f tables f' tables') :
    Clear f' tables' n := by
  refine ⟨h.1, h.2.mono fun a ⟨issued, fresh⟩ => ⟨step.supply.issued issued, fun ha => ?_⟩⟩
  rcases step.grown a ha with ha | ha
  · exact fresh ha
  · exact ha.1 issued

variable {schema : Schema} {native : Bool}

namespace Expr

theorem PartOf.covers {tableAlias : String} {e : Expr} (h : e.PartOf tableAlias) :
    Covers ns [.expression e] := .flat h.children

theorem RowOf.covers {tableAlias : String} {e : Expr} (h : e.RowOf tableAlias) :
    Covers ns [.expression e] := by
  rcases h with h | ⟨members, rfl, h⟩
  · exact h.covers
  · refine Covers.trans ?_ (.ofSlots (by simp))
    intro P hp hn n mem
    obtain ⟨slot, hs, rfl⟩ := List.mem_map.mp mem
    obtain ⟨m, hm, rfl⟩ := List.mem_map.mp hs
    exact (h m hm).covers P hp hn _ List.mem_cons_self

theorem covers_of_adapted {position : Position} {e e' : Expr}
    (fits : adapted native position e = .ok e') : Covers [.expression e] [.expression e'] := by
  have flat (n : Int) : Covers [.expression e] [.expression (int n)] := .flat rfl
  rcases adapted_cases fits with rfl | ⟨-, rfl⟩ | ⟨-, -, rfl⟩ | ⟨value, -, rfl⟩
  · exact fun _ _ hn => hn
  · refine Covers.trans ?_ (.ofSlots (by simp [asValue]))
    intro P hp hn
    simp [asValue, slots, hn, flat 1 P hp hn, flat 0 P hp hn]
  · refine Covers.trans ?_ (.ofSlots (by simp [equal, binaryOf]))
    intro P hp hn
    simp [equal, binaryOf, slots, hn, flat 1 P hp hn]
  · refine Covers.trans ?_ (.ofSlots (by simp [truth, binaryOf]))
    intro P hp hn
    simp [truth, binaryOf, slots, flat 1 P hp hn]

theorem covers_of_identity {e e' : Expr} (ready : (Node.expression e).IsReady)
    (h : e.identity = .ok e') : Covers [.expression e] [.expression e'] := by
  rcases identity_eq_ok ready h with ⟨_, -, rfl⟩ | ⟨_, _, _, -, rfl⟩ | ⟨_, _, _, _, -, rfl⟩ |
    ⟨rfl, -⟩
  · exact .flat rfl
  · exact .flat rfl
  · exact .flat rfl
  · exact fun _ _ hn => hn

theorem covers_of_identities {op : BinaryOp} {left right left' right' : Expr}
    (hl : (Node.expression left).IsReady) (hr : (Node.expression right).IsReady)
    (h : identities op left right = .ok (left', right')) :
    Covers [.expression left, .expression right] [.expression left', .expression right'] := by
  rcases identities_eq_ok h with ⟨-, hlk, hrk⟩ | ⟨-, rfl, rfl⟩
  · exact .cons (covers_of_identity hl hlk) (covers_of_identity hr hrk)
  · exact fun _ _ hn => hn

theorem covers_of_memberOf {e found : Expr} {member : String} (ready : (Node.expression e).IsReady)
    (h : e.memberOf schema member = .ok found) : Covers [.expression e] [.expression found] := by
  rcases memberOf_eq_ok ready h with ⟨_, _, rfl⟩ | ⟨c, rfl, -⟩ | ⟨members, n, hn, rfl, rfl⟩
  · exact .flat rfl
  · exact .flat rfl
  · refine (Covers.slots _).trans fun P hp hs => ?_
    simpa using hs _ (List.mem_map_of_mem (List.mem_map_of_mem hn))

end Expr

/-- What a resolution makes of trees in a statement with tables. -/
structure Separated (f : Fresh) (tables : List Table) (f' : Fresh) (tables' : List Table)
    (ns ns' : List Node) : Prop where
  step : Step f tables f' tables'
  tidy : Tidy f' tables'
  clear : ∀ n ∈ ns', Clear f' tables' n
  derives : Derives f f' ns ns'

namespace Separated

theorem unchanged (tidy : Tidy f tables) (clear : ∀ n ∈ ns, Clear f tables n)
    (covers : Covers ns ns') : Separated f tables f tables ns ns' :=
  ⟨.refl f tables, tidy, covers.clear clear, covers.derives⟩

theorem trans (h : Separated f tables f₁ tables₁ ns ns₁)
    (h' : Separated f₁ tables₁ f' tables' ns₁ ns') : Separated f tables f' tables' ns ns' :=
  ⟨h.step.trans h'.step, h'.tidy, h'.clear,
    h.derives.trans h'.derives h.step.supply h'.step.supply⟩

theorem stepped (h : Separated f tables f₁ tables₁ ns ns') (step : Step f₁ tables₁ f' tables')
    (tidy : Tidy f' tables') : Separated f tables f' tables' ns ns' :=
  h.trans ⟨step, tidy, fun n hn => (h.clear n hn).step step, fun _ hn n mem =>
    (hn n mem).mono fun _ => .inl⟩

theorem covers (h : Separated f tables f' tables' ns ns₁) (covers : Covers ns₁ ns') :
    Separated f tables f' tables' ns ns' :=
  h.trans (.unchanged h.tidy h.clear covers)

theorem append {ms ms' : List Node} (h : Separated f tables f₁ tables₁ ns ns')
    (h' : Separated f₁ tables₁ f' tables' ms ms') :
    Separated f tables f' tables' (ns ++ ms) (ns' ++ ms') := by
  refine ⟨h.step.trans h'.step, h'.tidy, ?_,
    h.derives.append h'.derives h.step.supply h'.step.supply⟩
  exact List.forall_mem_append.mpr ⟨fun n hn => (h.clear n hn).step h'.step, h'.clear⟩

theorem row {e : Expr} {tableAlias : String} (h : e.RowOf tableAlias)
    (step : Step f tables f' tables') (tidy : Tidy f' tables') :
    Separated f tables f' tables' ns [.expression e] := by
  have covers : Covers [] [.expression e] := h.covers
  exact ⟨step, tidy, covers.clear (by simp), .flat covers⟩

/-- Statements in a statement with tables are resolved without them. -/
theorem nested (tidy : Tidy f tables) (clear : ∀ n ∈ ns, Clear f tables n) (supply : f.Extends f')
    (apart : ∀ n ∈ ns', n.Apart) (derives : Derives f f' ns ns') :
    Separated f tables f' tables ns ns' := by
  have step : Step f tables f' tables := ⟨supply, fun _ ha => ha, fun _ => .inl⟩
  refine ⟨step, ⟨tidy.linked, tidy.nodup, fun a ha => supply.issued (tidy.issued a ha)⟩, ?_, derives⟩
  intro n mem
  refine ⟨apart n mem, (derives _ (fun n hn => (clear n hn).2) n mem).mono fun a ha => ?_⟩
  rcases ha with ⟨issued, outside⟩ | new
  · exact ⟨supply.issued issued, outside⟩
  · exact ⟨new.2, fun ha => new.1 (tidy.issued a ha)⟩

/-- Only the aliases of tables and their links matter. -/
theorem replaced (h : Separated f tables f' tables₁ ns ns')
    (aliases : tableAliases tables' = tableAliases tables₁)
    (links : tableLinks tables' = tableLinks tables₁) : Separated f tables f' tables' ns ns' := by
  obtain ⟨⟨supply, kept, grown⟩, ⟨linked, nodup, issued⟩, clear, derives⟩ := h
  rw [← aliases] at kept grown nodup issued
  exact ⟨⟨supply, kept, grown⟩, ⟨linked.of_links links, nodup, issued⟩,
    fun n hn => by rw [Clear, aliases]; exact clear n hn, derives⟩

end Separated

/-- Tables that get names from the supply stay tidy. -/
theorem Tidy.grown {names : List String} (tidy : Tidy f tables) (supply : f.Extends f')
    (linked : Linked tables') (aliases : (tableAliases tables').Perm (tableAliases tables ++ names))
    (nodup : names.Nodup) (new : ∀ a ∈ names, f.New f' a) :
    Step f tables f' tables' ∧ Tidy f' tables' := by
  have grown (a : String) (ha : a ∈ tableAliases tables') :
      a ∈ tableAliases tables ∨ f.New f' a :=
    (List.mem_append.mp (aliases.mem_iff.mp ha)).imp_right (new a)
  refine ⟨⟨supply, fun a ha => ?_, grown⟩, linked, ?_, fun a ha => ?_⟩
  · exact aliases.mem_iff.mpr (List.mem_append_left _ ha)
  · refine aliases.nodup_iff.mpr (List.nodup_append.mpr ⟨tidy.nodup, nodup, ?_⟩)
    rintro a ha b hb rfl
    exact (new a hb).1 (tidy.issued a ha)
  · rcases grown a ha with ha | ha
    · exact supply.issued (tidy.issued a ha)
    · exact ha.2

/-- A join under a fresh alias leaves the tables tidy. -/
theorem Tidy.joined {target : JoinTarget} (tidy : Tidy f tables)
    (bare : tables'.map Table.bare = tables.map Table.bare)
    (links : (tableLinks tables').Perm (tableLinks tables ++ [target.link]))
    (source : target.source.tableAlias? = some (f.named "t").1) :
    Step f tables (f.named "t").2 tables' ∧ Tidy (f.named "t").2 tables' := by
  have aliases := tableAliases_append bare links
  rw [source, Option.toList_some] at aliases
  refine tidy.grown (f.extends_named "t") (tidy.linked.append links) aliases (by simp) ?_
  intro a ha
  obtain rfl := List.mem_singleton.mp ha
  exact Fresh.new_named (by simp [Fresh.stems]) f

theorem Tidy.tail {table : Table} (tidy : Tidy f (table :: tables)) : Tidy f tables := by
  have aliases := tableAliases_cons table tables
  refine ⟨fun link hl => tidy.linked link ?_, ?_, fun a ha => tidy.issued a ?_⟩
  · exact tableLinks_cons table tables ▸ List.mem_append_right _ hl
  · exact (List.nodup_append.mp (aliases.nodup_iff.mp tidy.nodup)).2.1
  · exact aliases.mem_iff.mpr (List.mem_append_right _ ha)

/-- A step on some tables is a step with one more table in front of them. -/
theorem Tidy.cons {table : Table} (tidy : Tidy f (table :: tables))
    (step : Step f tables f' tables') (tidy' : Tidy f' tables') :
    Step f (table :: tables) f' (table :: tables') ∧ Tidy f' (table :: tables') := by
  have aliases := tableAliases_cons table tables
  have aliases' := tableAliases_cons table tables'
  have own (a : String) (ha : a ∈ table.aliases) : f.Issued a :=
    tidy.issued a (aliases.mem_iff.mpr (List.mem_append_left _ ha))
  obtain ⟨first, -, disjoint⟩ := List.nodup_append.mp (aliases.nodup_iff.mp tidy.nodup)
  have mem_cons {a : String} {ts : List Table} (h : a ∈ table.aliases ∨ a ∈ tableAliases ts) :
      a ∈ tableAliases (table :: ts) :=
    (tableAliases_cons table ts).mem_iff.mpr (List.mem_append.mpr h)
  refine ⟨⟨step.supply, fun a ha => ?_, fun a ha => ?_⟩, ?_, ?_, fun a ha => ?_⟩
  · exact mem_cons ((List.mem_append.mp (aliases.mem_iff.mp ha)).imp_right (step.kept a))
  · rcases List.mem_append.mp (aliases'.mem_iff.mp ha) with ha | ha
    · exact .inl (mem_cons (.inl ha))
    · exact (step.grown a ha).imp_left fun ha => mem_cons (.inr ha)
  · intro link hl
    rw [tableLinks_cons] at hl
    rcases List.mem_append.mp hl with hl | hl
    · exact tidy.linked link (tableLinks_cons table tables ▸ List.mem_append_left _ hl)
    · exact tidy'.linked link hl
  · refine aliases'.nodup_iff.mpr (List.nodup_append.mpr ⟨first, tidy'.nodup, ?_⟩)
    rintro a ha b hb rfl
    rcases step.grown a hb with hb | hb
    · exact disjoint a ha a hb rfl
    · exact hb.1 (own a ha)
  · rcases List.mem_append.mp (aliases'.mem_iff.mp ha) with ha | ha
    · exact step.supply.issued (own a ha)
    · exact tidy'.issued a ha

theorem Clear.tail {table : Table} {n : Node} (h : Clear f (table :: tables) n) :
    Clear f tables n := by
  refine ⟨h.1, h.2.mono fun a ⟨issued, outside⟩ => ⟨issued, fun ha => outside ?_⟩⟩
  exact (tableAliases_cons table tables).mem_iff.mpr (List.mem_append_right _ ha)

/-- Sources after the first one are resolved without it. -/
theorem Separated.cons {table : Table} (h : Separated f tables f' tables' ns ns')
    (tidy : Tidy f (table :: tables)) (clear : ∀ n ∈ ns, Clear f (table :: tables) n) :
    Separated f (table :: tables) f' (table :: tables') ns ns' := by
  obtain ⟨step, tidy'⟩ := tidy.cons h.step h.tidy
  refine ⟨step, tidy', fun n hn => ⟨(h.clear n hn).1, ?_⟩, h.derives⟩
  have own {a : String} (ha : a ∈ table.aliases) : a ∈ tableAliases (table :: tables) :=
    (tableAliases_cons table tables).mem_iff.mpr (List.mem_append_left _ ha)
  have outside := h.derives _ (fun n hn => (clear n hn).2) n hn
  refine ((h.clear n hn).2.and outside).mono fun n h a ha => ⟨(h.1 a ha).1, fun mem => ?_⟩
  rcases List.mem_append.mp ((tableAliases_cons table tables').mem_iff.mp mem) with mem | mem
  · rcases h.2 a ha with ⟨-, outside⟩ | new
    · exact outside (own mem)
    · exact new.1 (tidy.issued a (own mem))
  · exact (h.1 a ha).2 mem

/-- The source of the first table is resolved without the tables: a statement keeps its alias, and
a table gets a fresh one. -/
theorem Separated.source {key : Nat} {source source' : Source} {kind : JoinKind} {joins : List Join}
    (tidy : Tidy f (⟨key, source, kind, joins⟩ :: tables))
    (clear : ∀ s, source.statement? = some s →
      Clear f (⟨key, source, kind, joins⟩ :: tables) (.statement s))
    (supply : f.Extends f')
    (apart : ∀ s, source'.statement? = some s → (Node.statement s).Apart)
    (derives : Derives f f' (source.statement?.toList.map .statement)
      (source'.statement?.toList.map .statement))
    (named : source'.tableAlias? = source.tableAlias? ∨ source.tableAlias? = none ∧
      source'.statement? = none ∧ ∃ a, source'.tableAlias? = some a ∧ f.New f' a) :
    Separated f (⟨key, source, kind, joins⟩ :: tables) f' (⟨key, source', kind, joins⟩ :: tables)
      (source.statement?.toList.map .statement) (source'.statement?.toList.map .statement) := by
  rcases named with same | ⟨unnamed, flat, a, named, new⟩
  · refine (Separated.nested tidy ?_ supply ?_ derives).replaced ?_ rfl
    · simpa using clear
    · simpa using apart
    · simp only [tableAliases, sourceAliases, List.filterMap_cons, same]
      rfl
  · have aliases : (tableAliases (⟨key, source', kind, joins⟩ :: tables)).Perm
        (tableAliases (⟨key, source, kind, joins⟩ :: tables) ++ [a]) := by
      refine (tableAliases_cons _ _).trans (.trans ?_ ((tableAliases_cons _ _).symm.append_right _))
      simp only [Table.aliases, named, unnamed, Option.toList_some, Option.toList_none]
      exact (List.perm_append_singleton _ _).symm
    have linked : Linked (⟨key, source', kind, joins⟩ :: tables) := tidy.linked.of_links rfl
    obtain ⟨step, tidy'⟩ := tidy.grown supply linked aliases (by simp) (by simpa using new)
    refine ⟨step, tidy', ?_, derives⟩
    simp [flat]

/-- What the rules do to the aliases of statements. -/
def Separates : Judgement → Prop
  | .expression rows _ e tables f e' tables' f' | .fitted rows _ e tables f e' tables' f' =>
    PlainRows rows → (Node.expression e).Ready → Tidy f tables → Clear f tables (.expression e) →
      Separated f tables f' tables' [.expression e] [.expression e']
  | .slots rows slots tables f slots' tables' f' =>
    PlainRows rows → (∀ slot ∈ slots, (Node.expression slot.2).Ready) → Tidy f tables →
      (∀ slot ∈ slots, Clear f tables (.expression slot.2)) →
      Separated f tables f' tables' (slots.map fun slot => .expression slot.2)
        (slots'.map fun slot => .expression slot.2)
  | .source rows source f source' f' =>
    PlainRows rows →
      (∀ s, source.statement? = some s → (Node.statement s).Ready ∧ (Node.statement s).Apart ∧
        (Node.statement s).Within f.Issued) →
      f.Extends f' ∧ (∀ s, source'.statement? = some s → (Node.statement s).Apart) ∧
        Derives f f' (source.statement?.toList.map .statement)
          (source'.statement?.toList.map .statement) ∧
        (source'.tableAlias? = source.tableAlias? ∨ source.tableAlias? = none ∧
          source'.statement? = none ∧ ∃ a, source'.tableAlias? = some a ∧ f.New f' a)
  | .tables rows tables f tables' _ f' =>
    PlainRows rows → (∀ s ∈ sourceStatements tables, (Node.statement s).Ready) → Tidy f tables →
      (∀ s ∈ sourceStatements tables, Clear f tables (.statement s)) →
      Separated f tables f' tables' ((sourceStatements tables).map .statement)
        ((sourceStatements tables').map .statement)
  | .statement rows s f s' f' =>
    PlainRows rows → (Node.statement s).Ready → (Node.statement s).Apart →
      (Node.statement s).Within f.Issued →
      f.Extends f' ∧ (Node.statement s').Apart ∧ Derives f f' [.statement s] [.statement s']

variable {rows rows' : Rows} {position : Position}

theorem Separates.member {source source' found e : Expr} {name : String} {type : ValueType}
    (owner : Resolved schema native (.fitted rows .value source tables f source' tables₁ f₁))
    (mapped : source'.memberOf schema name = .ok found)
    (ihOwner : Separates (.fitted rows .value source tables f source' tables₁ f₁))
    (ihAgain : Separates (.expression rows position found tables₁ f₁ e tables' f')) :
    Separates (.expression rows position (.member source name type) tables f e tables' f') := by
  intro plain ready tidy clear
  have sourceReady := ready.slot List.mem_cons_self
  have sourceClear := (Covers.slots _).clear (by simpa using clear) _ List.mem_cons_self
  have first := ihOwner plain sourceReady tidy sourceClear
  obtain ⟨⟨settled, -⟩, -, -⟩ := owner.settles plain sourceReady tidy.linked
  have found := first.covers (Expr.covers_of_memberOf settled.ready.here mapped)
  have second := ihAgain plain (Expr.ready_of_memberOf settled mapped) found.tidy
    (found.clear _ List.mem_cons_self)
  exact (Separated.unchanged tidy (by simpa using clear) (Covers.slots _)).trans
    (found.trans second)

theorem Separates.navigation {entity : Entity} {member : String} {type : ValueType} {e : Expr}
    (followed : Entity.navigate (Mapping.ofSchema schema) entity member tables f =
      .ok ((e, tables'), f')) :
    Separates (.expression rows position (.navigation entity member type) tables f e tables' f') := by
  intro _ _ tidy clear
  obtain ⟨-, target, exposed, step⟩ := Entity.navigate_eq_ok tidy.linked followed
  obtain ⟨tableAlias, -, row⟩ := Source.row_eq_ok exposed
  rcases step with ⟨rfl, rfl, -⟩ | ⟨join, bare, links⟩
  · exact .unchanged tidy (by simpa using clear) row.covers
  · obtain ⟨itemType, tableName, left, right, -, -, rfl, rfl⟩ := Mapping.join_eq_ok join
    obtain ⟨step, tidy'⟩ := tidy.joined bare links rfl
    exact .row row step tidy'

theorem Separates.binary {op : BinaryOp} {type : ValueType}
    {left right left₁ right₁ left₂ right₂ left₃ right₃ : Expr}
    (first : Resolved schema native (.fitted rows .value left tables f left₁ tables₁ f₁))
    (second : Resolved schema native (.fitted rows .value right tables₁ f₁ right₁ tables' f'))
    (compared : identities op left₁ right₁ = .ok (left₂, right₂))
    (leftFits : Expr.adapted native .singleValue left₂ = .ok left₃)
    (rightFits : Expr.adapted native .singleValue right₂ = .ok right₃)
    (ihFirst : Separates (.fitted rows .value left tables f left₁ tables₁ f₁))
    (ihSecond : Separates (.fitted rows .value right tables₁ f₁ right₁ tables' f')) :
    Separates (.expression rows position (.binary op left right type) tables f
      (.binary op left₃ right₃ type) tables' f') := by
  intro plain ready tidy clear
  have operands := Separated.unchanged tidy (by simpa using clear) (Covers.slots _)
  have leftReady := ready.slot List.mem_cons_self
  have rightReady := ready.slot (List.mem_cons_of_mem _ List.mem_cons_self)
  have left := ihFirst plain leftReady tidy (operands.clear _ List.mem_cons_self)
  have right := ihSecond plain rightReady left.tidy
    ((operands.clear _ (List.mem_cons_of_mem _ List.mem_cons_self)).step left.step)
  obtain ⟨⟨leftSettled, -⟩, linked₁, -⟩ := first.settles plain leftReady tidy.linked
  obtain ⟨⟨rightSettled, -⟩, -, -⟩ := second.settles plain rightReady linked₁
  have compared := Expr.covers_of_identities leftSettled.ready.here rightSettled.ready.here compared
  have fitted := Covers.cons (Expr.covers_of_adapted leftFits) (Expr.covers_of_adapted rightFits)
  exact (operands.trans (left.append right)).covers
    ((compared.trans fitted).trans (.binary _ _ _ _))

theorem Separates.table {key : Nat} {source source' : Source} {kind : JoinKind} {joins : List Join}
    {row : Expr} (exposed : source'.row schema .sourceLeftUnresolved = .ok row)
    (ihFirst : Separates (.source rows source f source' f₁))
    (ihRest : Separates (.tables ((key, row) :: rows) tables f₁ tables' rows' f')) :
    Separates (.tables rows (⟨key, source, kind, joins⟩ :: tables) f
      (⟨key, source', kind, joins⟩ :: tables') rows' f') := by
  intro plain ready tidy clear
  obtain ⟨tableAlias, -, row⟩ := Source.row_eq_ok exposed
  obtain ⟨supply, apart, derives, named⟩ := ihFirst plain fun s hs =>
    have mem := mem_sourceStatements_cons.mpr (.inl hs)
    ⟨ready s mem, (clear s mem).1, (clear s mem).2.mono fun _ ha => ha.1⟩
  have source := Separated.source tidy
    (fun s hs => clear s (mem_sourceStatements_cons.mpr (.inl hs))) supply apart derives named
  have restClear := fun s hs => (clear s (mem_sourceStatements_cons.mpr (.inr hs))).step source.step
  have others := ihRest (List.forall_mem_cons.mpr ⟨⟨_, row⟩, plain⟩)
    (fun s hs => ready s (mem_sourceStatements_cons.mpr (.inr hs))) source.tidy.tail
    fun s hs => (restClear s hs).tail
  rw [sourceStatements_cons, sourceStatements_cons, List.map_append, List.map_append]
  exact source.append (others.cons source.tidy (by simpa using restClear))

theorem Separates.statement {s s' : Statement} {root : Expr} {tables₂ : List Table} {f₂ : Fresh}
    (sources : Resolved schema native (.tables rows s.tables f tables₁ rows' f₁))
    (joins : resolveTableJoins (Mapping.ofSchema schema) tables₁ f₁ = .ok (tables₂, f₂))
    (slots : Resolved schema native
      (.slots rows' s.slots tables₂ f₂ ((.value, root) :: s'.clauses) s'.tables f'))
    (projection : s'.projection = s.projection.renamed root)
    (ihSources : Separates (.tables rows s.tables f tables₁ rows' f₁))
    (ihSlots : Separates
      (.slots rows' s.slots tables₂ f₂ ((.value, root) :: s'.clauses) s'.tables f')) :
    Separates (.statement rows s f s' f') := by
  intro plain ready apart issued
  have tidy : Tidy _ _ := ⟨ready.here, apart.here.1, issued.here⟩
  have clear := fun child hc => Clear.intro (apart.child hc) (issued.child hc) (apart.here.2 child hc)
  have nested := ihSources plain
    (fun s hs => ready.child (List.mem_append_right _ (List.mem_map_of_mem hs))) tidy
    fun s hs => clear _ (List.mem_append_right _ (List.mem_map_of_mem hs))
  obtain ⟨⟨rfl, rfl⟩, plain₁, -, slotsReady⟩ := sources.slots_ready joins plain ready
  have expressions := ihSlots plain₁ slotsReady nested.tidy fun slot hs =>
    (clear _ (List.mem_append_left _ (List.mem_map_of_mem hs))).step nested.step
  obtain ⟨fitted, -, bare⟩ := slots.settles plain₁ slotsReady nested.tidy.linked
  have all := nested.append expressions
  have below : ∀ child ∈ (Node.statement _).children, child ∈ _ := fun child hc => by
    rw [Statement.children_eq projection (fitted _ List.mem_cons_self).1 bare] at hc
    exact List.mem_append.mpr (List.mem_append.mp hc).symm
  refine ⟨all.step.supply, ?_, fun Q hn n mem => ?_⟩
  · refine .intro ⟨all.tidy.nodup, fun child hc => ?_⟩ fun child hc => ?_
    · exact (all.clear child (below child hc)).2.mono fun _ ha => ha.2
    · exact (all.clear child (below child hc)).1
  · obtain rfl := List.mem_singleton.mp mem
    have within := hn _ List.mem_cons_self
    refine .intro (fun a ha => (all.step.grown a ha).imp_left (within.here a)) fun child hc => ?_
    refine all.derives Q (fun child hc => within.child ?_) child (below child hc)
    exact List.mem_append.mpr (List.mem_append.mp hc).symm

theorem Resolved.separates {j : Judgement} (h : Resolved schema native j) : Separates j := by
  induction h with
  | leaf leaf =>
    intro _ _ tidy clear
    exact .unchanged tidy (by simpa using clear) fun _ _ hn => hn
  | constant mapped =>
    intro _ _ tidy clear
    refine .unchanged tidy (by simpa using clear) ?_
    rcases Schema.constant_eq_ok mapped with ⟨_, _, _, -, rfl⟩ | ⟨-, rfl⟩
    · exact .flat rfl
    · exact .flat rfl
  | tableReference found =>
    intro plain _ tidy clear
    obtain ⟨tableAlias, row⟩ := plain.of_lookup found
    exact .unchanged tidy (by simpa using clear) row.covers
  | member owner mapped again ihOwner ihAgain => exact .member owner mapped ihOwner ihAgain
  | navigation followed => exact .navigation followed
  | binary first second compared leftFits rightFits ihFirst ihSecond =>
    exact .binary first second compared leftFits rightFits ihFirst ihSecond
  | composite composite kind type isPredicate wording labels slots ih =>
    intro plain ready tidy clear
    have operands := Separated.unchanged tidy (by simpa using clear) (Covers.slots _)
    have resolved := ih plain (fun _ hs => ready.slot hs) tidy fun slot hs =>
      operands.clear _ (List.mem_map_of_mem hs)
    refine (operands.trans resolved).covers (.ofSlots ?_)
    rintro s rfl
    rw [← kind] at composite
    cases composite
  | named inner ih =>
    intro _ ready
    exact absurd rfl ready.here.1
  | subStatement inner ih =>
    intro plain ready tidy clear
    have nested := Separated.unchanged tidy (by simpa using clear) (Covers.unwrap _)
    obtain ⟨apart, within⟩ := nested.clear _ List.mem_cons_self
    obtain ⟨supply, apart', derives⟩ :=
      ih plain (ready.child List.mem_cons_self) apart (within.mono fun _ ha => ha.1)
    exact (nested.trans (.nested tidy nested.clear supply (by simpa using apart') derives)).covers
      (.wrap _)
  | fitted resolved fits ih =>
    intro plain ready tidy clear
    exact (ih plain ready tidy clear).covers (Expr.covers_of_adapted fits)
  | noSlot =>
    intro _ _ tidy _
    exact .unchanged tidy (by simp) fun _ _ hn => hn
  | slot first rest ihFirst ihRest =>
    intro plain ready tidy clear
    obtain ⟨firstReady, restReady⟩ := List.forall_mem_cons.mp ready
    obtain ⟨firstClear, restClear⟩ := List.forall_mem_cons.mp clear
    have resolved := ihFirst plain firstReady tidy firstClear
    exact resolved.append
      (ihRest plain restReady resolved.tidy fun slot hs => (restClear slot hs).step resolved.step)
  | unresolvedSource mapped =>
    intro _ _
    obtain ⟨mapping, -, rfl, rfl⟩ := Mapping.source_eq_ok mapped
    refine ⟨Fresh.extends_named _ _, ?_, .flat (fun _ _ h => h),
      .inr ⟨rfl, rfl, _, rfl, Fresh.new_named (by simp [Fresh.stems]) _⟩⟩
    intro s hs
    cases hs
  | tableSource =>
    intro _ _
    refine ⟨.refl _, ?_, .flat (fun _ _ h => h), .inl rfl⟩
    intro s hs
    cases hs
  | statementSource inner ih =>
    intro plain h
    obtain ⟨ready, apart, issued⟩ := h _ rfl
    obtain ⟨supply, apart', derives⟩ := ih plain ready apart issued
    refine ⟨supply, fun s hs => ?_, derives, .inl rfl⟩
    obtain rfl := Option.some.inj hs
    exact apart'
  | noTable =>
    intro _ _ tidy _
    exact .unchanged tidy (by simp [sourceStatements]) fun _ _ hn => hn
  | table first exposed rest ihFirst ihRest => exact .table exposed ihFirst ihRest
  | statement sources joins slots projection shape isDistinct condition ihSources ihSlots =>
    exact .statement sources joins slots projection ihSources ihSlots

/-- Resolution keeps statements inside each other apart. -/
theorem Statement.apart_of_resolve {s s' : Statement} {f f' : Fresh}
    (ready : (Node.statement s).Ready) (apart : (Node.statement s).Apart)
    (issued : (Node.statement s).Within f.Issued)
    (h : s.resolve (Mapping.ofSchema schema) native f = .ok (s', f')) :
    (Node.statement s').Apart :=
  ((Statement.resolved_of_resolve h).separates (by simp [PlainRows]) ready apart issued).2.1

end Comprehension.Sql
