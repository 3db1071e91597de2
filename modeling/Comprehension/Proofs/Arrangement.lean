import Comprehension.Prepared.Operators
import Comprehension.Proofs.Construction
import Comprehension.Proofs.Offers
import Comprehension.Proofs.Separation

/-!
Statements while they are prepared. What is put together so far avoids the aliases of the tables so
far, no column is addressed yet and no table has joins. Each statement that is a source selects
columns with names.
-/
namespace Comprehension.Sql

theorem Expr.isColumned_withColumnName (e : Expr) : e.withColumnName.isColumned = true := by
  cases e <;> rfl

theorem Expr.unnamed_eq_self {e : Expr} (h : e.kind ≠ .named) : e.unnamed = e := by
  cases e with
  | named n => exact absurd rfl h
  | _ => rfl

theorem Expr.unnamed_withColumnName {e : Expr} (h : e.kind ≠ .named) :
    e.withColumnName.unnamed = e := by
  cases e with
  | named n => exact absurd rfl h
  | _ => rfl

namespace Node

def IsPrepared : Node → Prop
  | .expression e =>
    (e.kind.isRowwise = true ∨ e.kind.spansRows = true) ∧ e.IsWorded
  | .statement s =>
    tableLinks s.tables = [] ∧
      ∀ inner ∈ sourceStatements s.tables, inner.projection.isColumned = true

/-- Whether a tree holds nothing but what preparation makes. -/
def Prepared (n : Node) : Prop := n.Everywhere IsPrepared

theorem Everywhere.ready_of_prepared {n : Node} (h : n.Everywhere IsPrepared) : n.Ready := by
  refine h.mono fun n hn => ?_
  cases n with
  | expression e =>
    constructor
    · rintro named
      rw [IsPrepared, named] at hn
      simp [Kind.isRowwise, Kind.isBuilt, Kind.spansRows] at hn
    · cases e <;> first | rfl | simp [IsPrepared, Expr.kind, Kind.isRowwise, Kind.isBuilt, Kind.spansRows] at hn
  | statement s =>
    intro link hl
    rw [hn.1] at hl
    cases hl

/-- Nothing that preparation makes addresses a column. -/
theorem Everywhere.served_of_prepared {schema : Schema} {n : Node} (h : n.Everywhere IsPrepared)
    (offer : Offer) : Served schema offer n := by
  induction h generalizing offer with
  | intro here below ih =>
    rename_i n
    cases n with
    | expression e =>
      obtain ⟨kind, worded⟩ := here
      have reads : e.reads = [] := by
        cases e <;> first | rfl | simp [Expr.kind, Kind.isRowwise, Kind.isBuilt, Kind.spansRows] at kind
      have entity : e.entity? = none := by
        cases e <;> first | rfl | simp [Expr.kind, Kind.isRowwise, Kind.isBuilt, Kind.spansRows] at kind
      exact .expression ⟨worded, by simp [reads], by simp [entity]⟩ fun child hc => ih child hc offer
    | statement s =>
      refine .statement (fun link hl => ?_) here.2 (fun slot hs => ?_)
        fun before table after inner split nested => ?_
      · rw [here.1] at hl
        cases hl
      · exact ih _ (List.mem_append_left _ (List.mem_map_of_mem hs)) _
      · refine ih _ (List.mem_append_right _ (List.mem_map_of_mem ?_)) _
        rw [split]
        exact List.mem_filterMap.mpr ⟨table, by simp, nested⟩

end Node

theorem Built.covers {ns ns' : List Node} (h : ∀ n ∈ ns', Built ns n) : Covers ns ns' :=
  fun _ hp hn n mem => (h n mem).everywhere (fun e _ _ => hp e) hn

theorem Built.prepared {ns : List Node} (hn : ∀ n ∈ ns, n.Prepared) {n : Node} (h : Built ns n) :
    n.Prepared :=
  h.everywhere (fun _ kind worded => ⟨.inl (by rw [Kind.isRowwise, kind, Bool.true_or]), worded⟩) hn

/-- Trees that preparation can go on from. -/
structure Ground (f : Fresh) (ns : List Node) : Prop where
  apart : ∀ n ∈ ns, n.Apart
  prepared : ∀ n ∈ ns, n.Prepared
  issued : ∀ n ∈ ns, n.Within f.Issued

/-- What preparation makes of trees. -/
structure Prepares (f f' : Fresh) (ns ns' : List Node) : Prop where
  supply : f.Extends f'
  apart : ∀ n ∈ ns', n.Apart
  prepared : ∀ n ∈ ns', n.Prepared
  derives : Derives f f' ns ns'

variable {f₀ f f₁ f' : Fresh} {tables tables' : List Table} {ns₀ ns ns₁ ns₂ ns' : List Node}

theorem Ground.subset (h : Ground f ns) (sub : ns' ⊆ ns) : Ground f ns' :=
  ⟨fun n hn => h.apart n (sub hn), fun n hn => h.prepared n (sub hn), fun n hn => h.issued n (sub hn)⟩

theorem Ground.extends (h : Ground f ns) (supply : f.Extends f') : Ground f' ns :=
  ⟨h.apart, h.prepared, fun n hn => (h.issued n hn).mono fun _ => supply.issued⟩

namespace Prepares

theorem ground (h : Prepares f f' ns ns') (before : Ground f ns) : Ground f' ns' := by
  refine ⟨h.apart, h.prepared, fun n hn => (h.derives _ before.issued n hn).mono fun a ha => ?_⟩
  rcases ha with ha | ha
  · exact h.supply.issued ha
  · exact ha.2

theorem built (h : Prepares f f' ns ns₁) (built : ∀ n ∈ ns', Built ns₁ n) :
    Prepares f f' ns ns' := by
  have covers := Built.covers built
  refine ⟨h.supply, covers _ (fun _ => trivial) h.apart, fun n hn => (built n hn).prepared h.prepared, ?_⟩
  exact h.derives.trans covers.derives h.supply (.refl _)

theorem self (h : Ground f ns) : Prepares f f ns ns :=
  ⟨.refl f, h.apart, h.prepared, Covers.derives fun _ _ hn => hn⟩

/-- Two trees are made one after the other, of the same trees. -/
theorem both (h : Prepares f f₁ ns ns₁) (h' : Prepares f₁ f' ns ns₂) :
    Prepares f f' ns (ns₁ ++ ns₂) := by
  refine ⟨h.supply.trans h'.supply, ?_, ?_, fun Q hn => ?_⟩
  · exact List.forall_mem_append.mpr ⟨h.apart, h'.apart⟩
  · exact List.forall_mem_append.mpr ⟨h.prepared, h'.prepared⟩
  · have derives := h.derives.append h'.derives h.supply h'.supply
    exact derives Q (List.forall_mem_append.mpr ⟨hn, hn⟩)

/-- A statement becomes an operand. -/
theorem wrap {s : Statement} (h : Prepares f f' ns [.statement s]) :
    Prepares f f' ns [.expression (.subStatement s)] := by
  have covers := Covers.wrap s
  refine ⟨h.supply, covers _ (fun _ => trivial) h.apart, ?_, ?_⟩
  · rw [List.forall_mem_singleton]
    refine .intro ⟨.inl rfl, Expr.worded_of_wording_eq_none rfl⟩ fun child hc => ?_
    obtain rfl := List.mem_singleton.mp hc
    exact h.prepared _ List.mem_cons_self
  · exact h.derives.trans covers.derives h.supply (.refl _)

end Prepares

/-- A statement under construction: its tables so far, and what is put together so far of the trees
that were there before. -/
structure Arranged (f₀ : Fresh) (ns₀ : List Node) (f : Fresh) (tables : List Table)
    (ns : List Node) : Prop where
  separated : Separated f₀ [] f tables ns₀ ns
  prepared : ∀ n ∈ ns, n.Prepared
  unlinked : tableLinks tables = []
  columned : ∀ inner ∈ sourceStatements tables, inner.projection.isColumned = true

namespace Arranged

theorem ground (h : Arranged f₀ ns₀ f tables ns) : Ground f ns :=
  ⟨fun n hn => (h.separated.clear n hn).1, h.prepared,
    fun n hn => (h.separated.clear n hn).2.mono fun _ ha => ha.1⟩

theorem built (h : Arranged f₀ ns₀ f tables ns) (built : ∀ n ∈ ns', Built ns n) :
    Arranged f₀ ns₀ f tables ns' :=
  ⟨h.separated.covers (Built.covers built), fun n hn => (built n hn).prepared h.prepared, h.unlinked,
    h.columned⟩

/-- What spans rows is added by itself. -/
theorem spanning (h : Arranged f₀ ns₀ f tables ns) {e : Expr} (kind : e.kind.spansRows = true)
    (silent : e.wording = none) (slots : ∀ slot ∈ e.slots, Built ns (.expression slot.2)) :
    Arranged f₀ ns₀ f tables (ns ++ [Node.expression e]) := by
  have expression (s : Statement) : e ≠ .subStatement s := by
    rintro rfl
    cases kind
  have covers : Covers ns (ns ++ [Node.expression e]) := by
    intro P hp hn
    refine List.forall_mem_append.mpr ⟨hn, List.forall_mem_singleton.mpr ?_⟩
    exact .ofSlots expression (hp e) fun slot hs => (slots slot hs).everywhere (fun e _ _ => hp e) hn
  refine ⟨h.separated.covers covers, List.forall_mem_append.mpr ⟨h.prepared, ?_⟩, h.unlinked,
    h.columned⟩
  rw [List.forall_mem_singleton]
  exact .ofSlots expression ⟨.inr kind, Expr.worded_of_wording_eq_none silent⟩
    fun slot hs => (slots slot hs).prepared h.prepared

theorem subset (h : Arranged f₀ ns₀ f tables ns) (sub : ns' ⊆ ns) : Arranged f₀ ns₀ f tables ns' :=
  h.built fun _ hn => .part (sub hn)

/-- What is made of some of the trees is added to them. -/
theorem extend (h : Arranged f₀ ns₀ f tables ns) (h' : Prepares f f' ns₁ ns') (sub : ns₁ ⊆ ns) :
    Arranged f₀ ns₀ f' tables (ns ++ ns') := by
  have covers : Covers ns (ns ++ ns₁) := fun _ _ hn =>
    List.forall_mem_append.mpr ⟨hn, fun n mem => hn n (sub mem)⟩
  have kept : Separated f tables f tables ns ns :=
    .unchanged h.separated.tidy h.separated.clear fun _ _ hn => hn
  have added : Separated f tables f' tables ns₁ ns' :=
    .nested h.separated.tidy (fun n hn => h.separated.clear n (sub hn)) h'.supply h'.apart h'.derives
  exact ⟨(h.separated.covers covers).trans (kept.append added),
    List.forall_mem_append.mpr ⟨h.prepared, h'.prepared⟩, h.unlinked, h.columned⟩

/-- A statement without tables. -/
theorem start (ground : Ground f₀ ns₀) (h : Prepares f₀ f ns₀ ns) : Arranged f₀ ns₀ f [] ns := by
  have tidy : Tidy f₀ [] := ⟨(fun _ hl => nomatch hl), List.nodup_nil, fun _ ha => nomatch ha⟩
  have clear : ∀ n ∈ ns₀, Clear f₀ [] n := fun n hn =>
    .intro (ground.apart n hn) (ground.issued n hn)
      ((ground.issued n hn).mono fun _ _ ha => nomatch ha)
  exact ⟨.nested tidy clear h.supply h.apart h.derives, h.prepared, rfl, fun _ hs => nomatch hs⟩

theorem advance (h : Arranged f₀ ns₀ f tables ns) (supply : f.Extends f') :
    Arranged f₀ ns₀ f' tables ns := by
  have step : Step f tables f' tables := ⟨supply, fun _ ha => ha, fun _ => .inl⟩
  obtain ⟨linked, nodup, issued⟩ := h.separated.tidy
  exact ⟨h.separated.stepped step ⟨linked, nodup, fun a ha => supply.issued (issued a ha)⟩,
    h.prepared, h.unlinked, h.columned⟩

theorem tableLinks_snoc (unlinked : tableLinks tables = []) (key : Nat) (source : Source)
    (kind : JoinKind) : tableLinks (tables ++ [Table.ofSource key source kind]) = [] := by
  simpa [tableLinks, Table.ofSource, joinLinks] using unlinked

theorem tableAliases_snoc (unlinked : tableLinks tables = []) (key : Nat) (source : Source)
    (kind : JoinKind) :
    tableAliases (tables ++ [Table.ofSource key source kind]) =
      tableAliases tables ++ source.tableAlias?.toList := by
  rw [tableAliases, tableAliases, tableLinks_snoc unlinked, unlinked]
  cases h : source.tableAlias? <;> simp [sourceAliases, Table.ofSource, h]

theorem sourceStatements_snoc (key : Nat) (source : Source) (kind : JoinKind) :
    sourceStatements (tables ++ [Table.ofSource key source kind]) =
      sourceStatements tables ++ source.statement?.toList := by
  cases h : source.statement? <;> simp [sourceStatements, Table.ofSource, h]

/-- A table that is not mapped yet has no alias. -/
theorem unresolved (h : Arranged f₀ ns₀ f tables ns) (key : Nat) (itemType : String)
    (kind : JoinKind) :
    Arranged f₀ ns₀ f (tables ++ [Table.ofSource key (.unresolved itemType) kind]) ns := by
  have links := tableLinks_snoc h.unlinked key (.unresolved itemType) kind
  refine ⟨h.separated.replaced ?_ (links.trans h.unlinked.symm), h.prepared, links, ?_⟩
  · rw [tableAliases_snoc h.unlinked]
    exact List.append_nil _
  · rw [sourceStatements_snoc, List.forall_mem_append]
    exact ⟨h.columned, fun _ hs => nomatch hs⟩

/-- A statement that becomes a source is put under a fresh alias. -/
theorem source (h : Arranged f₀ ns₀ f tables ns) (key : Nat) (s : Statement) (kind : JoinKind)
    (columned : s.projection.isColumned = true) :
    Arranged f₀ ns₀ (f.named "q").2
      (tables ++ [Table.ofSource key (.statement (f.named "q").1 s) kind]) ns := by
  have links := tableLinks_snoc h.unlinked key (.statement (f.named "q").1 s) kind
  have aliases := tableAliases_snoc h.unlinked key (.statement (f.named "q").1 s) kind
  have linked : Linked (tables ++ [Table.ofSource key (.statement (f.named "q").1 s) kind]) :=
    h.separated.tidy.linked.of_links (links.trans h.unlinked.symm)
  obtain ⟨step, tidy⟩ := h.separated.tidy.grown (f.extends_named "q") linked (.of_eq aliases)
    (by simp [Source.tableAlias?]) (by
      intro a ha
      obtain rfl := List.mem_singleton.mp ha
      exact Fresh.new_named (by simp [Fresh.stems]) f)
  refine ⟨h.separated.stepped step tidy, h.prepared, links, ?_⟩
  rw [sourceStatements_snoc, List.forall_mem_append]
  exact ⟨h.columned, List.forall_mem_singleton.mpr columned⟩

/-- A statement is finished when all its clauses are there. -/
theorem close {s : Statement} (h : Arranged f₀ ns₀ f s.tables ns)
    (below : ∀ child ∈ (Node.statement s).children, child ∈ ns) :
    Prepares f₀ f ns₀ (ns ++ [Node.statement s]) := by
  obtain ⟨step, tidy, clear, derives⟩ := h.separated
  refine ⟨step.supply, ?_, ?_, fun Q hn => ?_⟩
  · refine List.forall_mem_append.mpr ⟨fun n hn => (clear n hn).1, ?_⟩
    rw [List.forall_mem_singleton]
    exact .intro ⟨tidy.nodup, fun child hc => (clear child (below child hc)).2.mono fun _ ha => ha.2⟩
      fun child hc => (clear child (below child hc)).1
  · refine List.forall_mem_append.mpr ⟨h.prepared, ?_⟩
    rw [List.forall_mem_singleton]
    exact .intro ⟨h.unlinked, h.columned⟩ fun child hc => h.prepared child (below child hc)
  · refine List.forall_mem_append.mpr ⟨derives Q hn, ?_⟩
    rw [List.forall_mem_singleton]
    refine .intro (fun a ha => ?_) fun child hc => derives Q hn child (below child hc)
    exact .inr ((step.grown a ha).resolve_left fun ha => nomatch ha)

end Arranged

namespace Statement

/-- What a statement is made of, while its projection has no name. -/
def parts (s : Statement) : List Node :=
  .expression s.projection :: (s.clauses.map (fun slot => .expression slot.2) ++
    (sourceStatements s.tables).map .statement)

theorem forall_parts {P : Node → Prop} {s : Statement} :
    (∀ n ∈ s.parts, P n) ↔
      P (.expression s.projection) ∧ (∀ e, s.condition = some e → P (.expression e)) ∧
        (∀ e, s.grouping = some e → P (.expression e)) ∧
        (∀ o ∈ s.orderings, P (.expression o.expression)) ∧
        (∀ e, s.top = some e → P (.expression e)) ∧
        (∀ e, s.rowNumber = some e → P (.expression e)) ∧
        (∀ e, s.rowOffset = some e → P (.expression e)) ∧
        ∀ t ∈ sourceStatements s.tables, P (.statement t) := by
  simp only [parts, clauses, List.forall_mem_cons, List.forall_mem_append, List.forall_mem_map,
    Option.mem_toList, and_assoc]

/-- Below a statement with the same tables there is nothing else but some of its parts. -/
theorem children_subset {s t : Statement} (tables : t.tables = s.tables)
    (projection : t.projection.unnamed = s.projection) (clauses : t.clauses ⊆ s.clauses) :
    (Node.statement t).children ⊆ s.parts := by
  intro child hc
  rw [Node.children, tables, slots, projection, List.map_cons, List.cons_append, List.mem_cons,
    List.mem_append] at hc
  rcases hc with rfl | hc | hc
  · exact List.mem_cons_self
  · obtain ⟨slot, hs, rfl⟩ := List.mem_map.mp hc
    exact List.mem_cons_of_mem _ (List.mem_append_left _ (List.mem_map_of_mem (clauses hs)))
  · exact List.mem_cons_of_mem _ (List.mem_append_right _ hc)

/-- A statement that becomes a source loses at most its order. -/
theorem clauses_asSource (s : Statement) : s.asSource.clauses ⊆ s.clauses := by
  unfold asSource clauses
  dsimp only
  split
  · exact List.Subset.refl _
  · intro slot hs
    simp only [List.map_nil, List.append_nil, List.mem_append] at hs ⊢
    grind

end Statement

namespace Arranged

theorem projection {s : Statement} (h : Arranged f₀ ns₀ f tables (ns ++ s.parts)) :
    (Node.expression s.projection).Prepared :=
  h.prepared _ (List.mem_append_right _ List.mem_cons_self)

/-- A statement with all its clauses, and the same statement as a source. -/
theorem finish {s : Statement} (h : Arranged f₀ ns₀ f s.tables (ns ++ s.parts)) :
    Prepares f₀ f ns₀ (ns ++ [Node.statement s]) ∧
      Prepares f₀ f ns₀ (ns ++ [Node.statement s.asSource]) := by
  have whole {t : Statement} (tables : t.tables = s.tables)
      (below : (Node.statement t).children ⊆ s.parts) :
      Prepares f₀ f ns₀ (ns ++ [Node.statement t]) := by
    rw [← tables] at h
    refine (h.close fun child hc => List.mem_append_right _ (below hc)).built fun n hn => .part ?_
    rw [List.append_assoc]
    rcases List.mem_append.mp hn with hn | hn
    · exact List.mem_append_left _ hn
    · exact List.mem_append_right _ (List.mem_append_right _ hn)
  have unnamed : s.projection.kind ≠ .named := h.projection.ready_of_prepared.here.1
  exact ⟨whole rfl
      (Statement.children_subset rfl (Expr.unnamed_eq_self unnamed) (List.Subset.refl _)),
    whole rfl
      (Statement.children_subset rfl (Expr.unnamed_withColumnName unnamed) s.clauses_asSource)⟩

end Arranged

namespace Statement

theorem nested_eq_ok {s outer : Statement} {reference : Expr}
    (h : s.nested f = .ok ((outer, reference), f')) :
    ∃ type, reference = .tableReference f.key.1 type ∧ f' = (f.key.2.named "q").2 ∧
      outer = ⟨reference,
        [.ofSource f.key.1 (.statement (f.key.2.named "q").1 s.asSource) .inner],
        none, none, [], none, false, none, none, .sequence type⟩ := by
  obtain ⟨checked, f₁, hc, drawn⟩ := Supply.bind_eq_ok.mp h
  obtain ⟨same, rfl⟩ := Supply.lift_eq_ok.mp hc
  obtain rfl := Statement.checked_eq_ok same
  obtain ⟨key, f₂, hk, named⟩ := Supply.bind_eq_ok.mp drawn
  obtain ⟨tableAlias, f₃, ha, built⟩ := Supply.bind_eq_ok.mp named
  obtain ⟨result, rfl⟩ := Supply.pure_eq_ok.mp built
  obtain ⟨rfl, rfl⟩ := Prod.mk.inj result
  have key_eq := Supply.freshKey_eq_ok.mp hk
  have alias_eq := Supply.freshAlias_eq_ok.mp ha
  rw [key_eq, alias_eq]
  exact ⟨_, rfl, rfl, rfl⟩

end Statement

namespace Arranged

variable {s s' : Statement}

/-- Every part of a statement is one of the trees that are there. -/
theorem parts (ns : List Node) (s : Statement) : ∀ n ∈ s.parts, Built (ns ++ s.parts) n :=
  fun _ hn => .part (List.mem_append_right _ hn)

theorem partsBefore (ns : List Node) (s : Statement) (n : Node) :
    ∀ m ∈ s.parts, Built (ns ++ s.parts ++ [n]) m :=
  fun _ hm => .part (List.mem_append_left _ (List.mem_append_right _ hm))

theorem tableReference (key : Nat) (type : ValueType) :
    Built ns (.expression (.tableReference key type)) :=
  .plain rfl rfl (by simp [Expr.slots])

/-- The statement around a source has no other parts than the source and the reference to it. -/
theorem nested {outer : Statement} {reference : Expr} (ground : Ground f₀ ns₀)
    (h : Arranged f₀ ns₀ f s.tables (ns ++ s.parts))
    (hn : s.nested f = .ok ((outer, reference), f')) :
    Arranged f₀ ns₀ f' outer.tables (ns ++ [Node.statement s.asSource]) ∧
      Arranged f₀ ns₀ f' outer.tables (ns ++ outer.parts) := by
  obtain ⟨type, rfl, rfl, rfl⟩ := Statement.nested_eq_ok hn
  have started := (Arranged.start ground h.finish.2).advance (Fresh.extends_key f)
  have placed := started.source f.key.1 s.asSource .inner s.projection.isColumned_withColumnName
  refine ⟨placed, placed.built fun n hn => ?_⟩
  rcases List.mem_append.mp hn with hn | hn
  · exact .part (List.mem_append_left _ hn)
  · rcases List.mem_cons.mp hn with rfl | hn
    · exact tableReference _ _
    · exact .part (List.mem_append_right _ hn)

theorem nestedIf (ground : Ground f₀ ns₀) (h : Arranged f₀ ns₀ f s.tables (ns ++ s.parts))
    {condition : Bool} (hn : s.nestedIf condition f = .ok (s', f')) :
    Arranged f₀ ns₀ f' s'.tables (ns ++ s'.parts) := by
  cases condition with
  | false =>
    obtain ⟨rfl, rfl⟩ := Supply.pure_eq_ok.mp hn
    exact h
  | true =>
    obtain ⟨⟨outer, reference⟩, f₁, around, result⟩ := Supply.bind_eq_ok.mp hn
    obtain ⟨rfl, rfl⟩ := Supply.pure_eq_ok.mp result
    exact (nested ground h around).2

/-- Clauses are replaced by what is built of the parts. -/
theorem replace (h : Arranged f₀ ns₀ f s.tables (ns ++ s.parts)) (tables : s'.tables = s.tables)
    (built : ∀ n ∈ s'.parts, Built (ns ++ s.parts) n) :
    Arranged f₀ ns₀ f s'.tables (ns ++ s'.parts) := by
  rw [tables]
  exact h.built (List.forall_mem_append.mpr ⟨fun n hn => .part (List.mem_append_left _ hn), built⟩)

/-- Clauses are replaced by what is built of the parts and of a node that spans rows. -/
theorem replaceSpanning (h : Arranged f₀ ns₀ f s.tables (ns ++ s.parts))
    (tables : s'.tables = s.tables) {e : Expr} (kind : e.kind.spansRows = true)
    (silent : e.wording = none) (slots : ∀ slot ∈ e.slots, Built (ns ++ s.parts) (.expression slot.2))
    (built : ∀ n ∈ s'.parts, Built (ns ++ s.parts ++ [Node.expression e]) n) :
    Arranged f₀ ns₀ f s'.tables (ns ++ s'.parts) := by
  rw [tables]
  exact (h.spanning kind silent slots).built
    (List.forall_mem_append.mpr ⟨fun n hn => .part (by simp [hn]), built⟩)

theorem aggregate (ground : Ground f₀ ns₀) (h : Arranged f₀ ns₀ f s.tables (ns ++ s.parts))
    {function : Aggregate} {type? : Option ValueType}
    (ha : s.aggregate function type? f = .ok (s', f')) :
    Arranged f₀ ns₀ f' s'.tables (ns ++ s'.parts) := by
  obtain ⟨t, f₁, hn, result⟩ := Supply.bind_eq_ok.mp ha
  obtain ⟨rfl, rfl⟩ := Supply.pure_eq_ok.mp result
  obtain ⟨projection, -⟩ := Statement.forall_parts.mp (parts ns t)
  refine (nestedIf ground h hn).replaceSpanning rfl
    (e := .aggregation function t.projection (type?.getD t.projection.type)) rfl rfl
    (by simpa [Expr.slots] using projection) ?_
  obtain ⟨-, condition, grouping, -, others⟩ := Statement.forall_parts.mp (partsBefore ns t _)
  exact Statement.forall_parts.mpr ⟨.part (by simp), condition, grouping, by simp, others⟩

theorem conjoined {existing : Option Expr} {condition : Expr}
    (he : ∀ e, existing = some e → Built ns (.expression e))
    (hc : Built ns (.expression condition)) :
    ∀ e, some (Sql.conjoined existing condition) = some e → Built ns (.expression e) := by
  intro e same
  obtain rfl := Option.some.inj same
  cases existing with
  | none => exact hc
  | some first => exact .logical (he first rfl) hc

theorem take (ground : Ground f₀ ns₀) (h : Arranged f₀ ns₀ f s.tables (ns ++ s.parts)) {count : Expr}
    (hc : .expression count ∈ ns) (ht : s.take count f = .ok (s', f')) :
    Arranged f₀ ns₀ f' s'.tables (ns ++ s'.parts) := by
  have count' {t : Statement} : Built (ns ++ t.parts) (.expression count) :=
    .part (List.mem_append_left _ hc)
  have limited {t : Statement} {f₁ : Fresh} (hn : s.nestedIf s.top.isSome f = .ok (t, f₁)) :
      Arranged f₀ ns₀ f₁ t.tables (ns ++ ({ t with top := some count } : Statement).parts) := by
    have same : ({ t with top := some count } : Statement).tables = t.tables := rfl
    refine (nestedIf ground h hn).replace same ?_
    rw [Statement.forall_parts]
    obtain ⟨projection, condition, grouping, orderings, -, others⟩ :=
      Statement.forall_parts.mp (parts ns t)
    refine ⟨projection, condition, grouping, orderings, fun e he => ?_, others⟩
    exact Option.some.inj he ▸ count'
  unfold Statement.take at ht
  cases hr : s.rowNumber with
  | none =>
    rw [hr] at ht
    obtain ⟨t, f₁, hn, result⟩ := Supply.bind_eq_ok.mp ht
    obtain ⟨rfl, rfl⟩ := Supply.pure_eq_ok.mp result
    exact limited (t := t) hn
  | some rowNumber =>
    cases ho : s.rowOffset with
    | none =>
      rw [hr, ho] at ht
      obtain ⟨t, f₁, hn, result⟩ := Supply.bind_eq_ok.mp ht
      obtain ⟨rfl, rfl⟩ := Supply.pure_eq_ok.mp result
      exact limited (t := t) hn
    | some offset =>
      rw [hr, ho] at ht
      obtain ⟨rfl, rfl⟩ := Supply.pure_eq_ok.mp ht
      refine h.replace rfl ?_
      rw [Statement.forall_parts]
      obtain ⟨projection, condition, grouping, orderings, top, number, numberOffset, sources⟩ :=
        Statement.forall_parts.mp (parts ns s)
      have bound : Built (ns ++ s.parts)
          (.expression (.binaryOf .lessThanOrEqual rowNumber (.add offset count))) :=
        .binary (number rowNumber hr) (.binary (numberOffset offset ho) count')
      exact ⟨projection, conjoined condition bound, grouping, orderings, top, number, numberOffset,
        sources⟩

theorem singleRow (ground : Ground f₀ ns₀) (h : Arranged f₀ ns₀ f s.tables (ns ++ s.parts))
    {rows : Int} {orDefault : Bool} (hs : s.singleRow rows orDefault f = .ok (s', f')) :
    Arranged f₀ ns₀ f' s'.tables (ns ++ s'.parts) := by
  obtain ⟨t, f₁, hn, result⟩ := Supply.bind_eq_ok.mp hs
  obtain ⟨rfl, rfl⟩ := Supply.pure_eq_ok.mp result
  refine (nestedIf ground h hn).replace rfl ?_
  rw [Statement.forall_parts]
  obtain ⟨projection, condition, grouping, orderings, -, others⟩ :=
    Statement.forall_parts.mp (parts ns t)
  refine ⟨projection, condition, grouping, orderings, fun e he => ?_, others⟩
  exact Option.some.inj he ▸ .int rows

theorem distinct (ground : Ground f₀ ns₀) (h : Arranged f₀ ns₀ f s.tables (ns ++ s.parts))
    (hd : s.distinct f = .ok (s', f')) : Arranged f₀ ns₀ f' s'.tables (ns ++ s'.parts) := by
  obtain ⟨t, f₁, hn, result⟩ := Supply.bind_eq_ok.mp hd
  obtain ⟨rfl, rfl⟩ := Supply.pure_eq_ok.mp result
  exact (nestedIf ground h hn).replace rfl (parts ns t)

/-- The statement that numbers its rows. -/
theorem numbered (h : Arranged f₀ ns₀ f s.tables (ns ++ s.parts)) :
    Arranged f₀ ns₀ f s.numbered.tables (ns ++ s.numbered.parts) := by
  have keys : ∀ slot ∈ (Expr.rowNumber s.numbering).slots,
      Built (ns ++ s.parts) (.expression slot.2) := by
    intro slot hs
    obtain ⟨o, ho, rfl⟩ := List.mem_map.mp hs
    unfold Statement.numbering at ho
    split at ho
    · obtain rfl := List.mem_singleton.mp ho
      exact .int 1
    · obtain ⟨-, -, -, orderings, -⟩ := Statement.forall_parts.mp (parts ns s)
      exact orderings o ho
  refine h.replaceSpanning rfl rfl rfl keys ?_
  rw [Statement.forall_parts]
  obtain ⟨projection, condition, grouping, -, others⟩ :=
    Statement.forall_parts.mp (partsBefore ns s (.expression (.rowNumber s.numbering)))
  refine ⟨.plain rfl rfl fun slot hs => ?_, condition, grouping, by simp [Statement.numbered], others⟩
  rcases List.mem_cons.mp hs with rfl | hs
  · exact projection
  · obtain rfl := List.mem_singleton.mp hs
    exact .part (by simp)

theorem skip (ground : Ground f₀ ns₀) (h : Arranged f₀ ns₀ f s.tables (ns ++ s.parts))
    {offset : Expr} (ho : .expression offset ∈ ns) (hs : s.skip offset f = .ok (s', f')) :
    Arranged f₀ ns₀ f' s'.tables (ns ++ s'.parts) := by
  obtain ⟨t, f₁, hn, rest⟩ := Supply.bind_eq_ok.mp hs
  obtain ⟨⟨outer, reference⟩, f₂, around, result⟩ := Supply.bind_eq_ok.mp rest
  obtain ⟨rfl, rfl⟩ := Supply.pure_eq_ok.mp result
  have source := (nested ground (nestedIf ground h hn).numbered around).1
  obtain ⟨type, rfl, -, rfl⟩ := Statement.nested_eq_ok around
  refine source.built (List.forall_mem_append.mpr ⟨fun n hn => .part (List.mem_append_left _ hn), ?_⟩)
  have member (name : String) (type' : ValueType) :
      Built (ns ++ [Node.statement t.numbered.asSource])
        (.expression (.member (.tableReference f₁.key.1 type) name type')) :=
    .plain rfl rfl (by simpa [Expr.slots] using tableReference _ _)
  have offset' : Built (ns ++ [Node.statement t.numbered.asSource]) (.expression offset) :=
    .part (List.mem_append_left _ ho)
  rw [Statement.forall_parts]
  refine ⟨member _ _, conjoined (by simp) (.binary (member _ _) offset'), by simp [Statement.withCondition],
    by simpa using member _ _, by simp [Statement.withCondition], by simpa using member _ _,
    by simpa using offset', ?_⟩
  intro inner hi
  obtain rfl := List.mem_singleton.mp hi
  exact .part (List.mem_append_right _ List.mem_cons_self)

/-- The operand of an operator is prepared first. -/
theorem operand {n : Node} (h : Arranged f₀ ns₀ f s.tables (ns ++ s.parts))
    (h' : Prepares f f' ns [n]) : Arranged f₀ ns₀ f' s.tables (ns ++ [n] ++ s.parts) := by
  refine (h.extend h' (List.subset_append_left _ _)).subset fun m hm => ?_
  simp only [List.mem_append] at hm ⊢
  rcases hm with (hm | hm) | hm
  · exact .inl (.inl hm)
  · exact .inr hm
  · exact .inl (.inr hm)

theorem withoutOperand {n : Node} (h : Arranged f₀ ns₀ f s.tables (ns ++ [n] ++ s.parts)) :
    Arranged f₀ ns₀ f s.tables (ns ++ s.parts) :=
  h.subset (List.append_subset.mpr ⟨fun _ hm => List.mem_append_left _ (List.mem_append_left _ hm),
    List.subset_append_right _ _⟩)

end Arranged

end Comprehension.Sql
