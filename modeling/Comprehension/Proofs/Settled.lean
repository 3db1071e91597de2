import Comprehension.Proofs.Resolution

/-!
What a resolved statement looks like. Nothing is left in it that refers to an item, a member or a
call, each expression fits the position it stands in, all joins are mapped and all sources expose
rows.
-/
namespace Comprehension.Sql

/-- Kinds of nodes that resolution replaces. -/
def Kind.isPending : Kind → Bool
  | tableReference | member | navigation | methodCall | named => true
  | _ => false

namespace Expr

/-- Whether the key of an entity constant is a constant. -/
def keyed : Expr → Bool
  | entityConstant _ _ (constant ..) => true
  | entityConstant .. => false
  | _ => true

/-- The aliases through which a node itself addresses columns. -/
def addressed : Expr → List String
  | column c => [c.owner]
  | entity e => e.tableAlias :: e.primaryKey.owner :: e.columns.map Column.owner
  | entityReference tableAlias _ _ => [tableAlias]
  | entityConstant _ _ key => key.addressed
  | _ => []

/-- A column or an entity that is addressed through an alias. -/
inductive PartOf (tableAlias : String) : Expr → Prop where
  | column {c} (owner : c.owner = tableAlias) : PartOf tableAlias (column c)
  | entity {e} (owned : ∀ a ∈ (entity e).addressed, a = tableAlias) : PartOf tableAlias (entity e)
  | reference {name e} : PartOf tableAlias (entityReference tableAlias name e)

/-- What the rows of a source look like under its alias. -/
def RowOf (tableAlias : String) (e : Expr) : Prop :=
  e.PartOf tableAlias ∨
    ∃ members, e = compound members ∧ ∀ n ∈ members, n.expression.PartOf tableAlias

end Expr

namespace Node

/-- Projections alone have names, and joins are mapped where there are any. -/
def IsReady : Node → Prop
  | .expression e => e.kind ≠ .named ∧ e.keyed = true
  | .statement s => Linked s.tables

def IsSettled (schema : Schema) (native : Bool) : Node → Prop
  | .expression e =>
    e.kind.isPending = false ∧ e.keyed = true ∧ ∀ slot ∈ e.slots, slot.2.Fits native slot.1
  | .statement s =>
    Linked s.tables ∧ (∀ slot ∈ s.slots, slot.2.Fits native slot.1) ∧
      (∀ table ∈ s.tables, ∃ row, table.source.row schema .sourceLeftUnresolved = .ok row) ∧
      ∀ c, s.condition = some c → c.type.isBoolean = true

/-- What resolution asks of a tree. -/
def Ready (n : Node) : Prop := n.Everywhere IsReady

/-- What resolution makes of a tree. -/
def Settled (schema : Schema) (native : Bool) (n : Node) : Prop := n.Everywhere (IsSettled schema native)

theorem Everywhere.ready {schema : Schema} {native : Bool} {n : Node}
    (h : n.Everywhere (IsSettled schema native)) : n.Ready := by
  refine h.mono fun n hn => ?_
  cases n with
  | expression e =>
    refine ⟨fun hk => ?_, hn.2.1⟩
    have := hn.1
    rw [hk] at this
    cases this
  | statement s => exact hn.1

end Node

variable {schema : Schema} {native : Bool}

section Rows

variable {tableAlias : String}

theorem Named.partOf_exposed (n : Named) : (n.exposed tableAlias).PartOf tableAlias := by
  unfold Named.exposed
  split
  · exact .reference
  · exact .reference
  · exact .column rfl

theorem Expr.rowOf_exposed (e : Expr) : (e.exposed tableAlias).RowOf tableAlias := by
  cases e with
  | named n => exact .inl n.partOf_exposed
  | compound members =>
    refine .inr ⟨_, rfl, fun n hn => ?_⟩
    obtain ⟨m, -, rfl⟩ := List.mem_map.mp hn
    exact m.partOf_exposed
  | entity e => exact .inl .reference
  | entityReference _ name e => exact .inl .reference
  | _ => exact .inl (.column rfl)

/-- The rows of a source are addressed through its alias. -/
theorem Source.row_eq_ok {source : Source} {unresolved : String → Violation} {row : Expr}
    (h : source.row schema unresolved = .ok row) :
    ∃ tableAlias, source.tableAlias? = some tableAlias ∧ row.RowOf tableAlias := by
  cases source with
  | unresolved itemType => cases h
  | table itemType tableName tableAlias =>
    obtain ⟨e, he, h⟩ := Outcome.bind_eq_ok.mp h
    obtain rfl := Outcome.pure_eq_ok.mp h
    obtain ⟨mapping, key, -, -, rfl⟩ := Schema.entity_eq_ok he
    refine ⟨tableAlias, rfl, .inl (.entity ?_)⟩
    simp [Expr.addressed, TypeMapping.ownedColumn]
  | statement tableAlias s =>
    obtain rfl := Except.ok.inj h
    exact ⟨tableAlias, rfl, s.projection.rowOf_exposed⟩

theorem Expr.PartOf.children {e : Expr} (h : e.PartOf tableAlias) :
    (Node.expression e).children = [] := by
  cases h <;> rfl

theorem Expr.PartOf.isPredicate {e : Expr} (h : e.PartOf tableAlias) : e.isPredicate = false := by
  cases h <;> rfl

theorem Expr.PartOf.settled {e : Expr} (h : e.PartOf tableAlias) :
    (Node.expression e).Settled schema native := by
  refine .intro ?_ (by simp [h.children])
  cases h <;> exact ⟨rfl, rfl, by simp [Expr.slots]⟩

theorem Expr.RowOf.settled {e : Expr} (h : e.RowOf tableAlias) :
    (Node.expression e).Settled schema native := by
  rcases h with h | ⟨members, rfl, h⟩
  · exact h.settled
  · refine .ofSlots (by simp) ⟨rfl, rfl, fun slot hs => ?_⟩ fun slot hs => ?_
    · obtain ⟨n, hn, rfl⟩ := List.mem_map.mp hs
      exact fun _ => (h n hn).isPredicate
    · obtain ⟨n, hn, rfl⟩ := List.mem_map.mp hs
      exact (h n hn).settled

end Rows

namespace Expr

theorem settled_constant (value : Value) (type : ValueType) :
    (Node.expression (constant value type)).Settled schema native := by
  refine .ofSlots (by simp) ⟨rfl, rfl, ?_⟩ ?_ <;> simp [slots]

theorem settled_int (n : Int) : (Node.expression (int n)).Settled schema native := by
  refine .ofSlots (by simp [int]) ⟨rfl, rfl, ?_⟩ ?_ <;> simp [slots, int]

theorem settled_column (c : Column) : (Node.expression (column c)).Settled schema native :=
  (PartOf.column rfl).settled

theorem settled_leaf {e : Expr} (leaf : e.kind.isLeaf = true)
    (ready : (Node.expression e).Ready) : (Node.expression e).Settled schema native := by
  have hs := slots_of_isLeaf leaf
  have hp : e.kind.isPending = false := by cases e <;> first | rfl | cases leaf
  refine .ofSlots ?_ ⟨hp, ready.here.2, ?_⟩ ?_
  · rintro s rfl
    cases leaf
  all_goals simp [hs]

theorem settled_composite {e : Expr} (composite : e.kind.isComposite = true)
    (slots : ∀ slot ∈ e.slots,
      (Node.expression slot.2).Settled schema native ∧ slot.2.Fits native slot.1) :
    (Node.expression e).Settled schema native := by
  have hp : e.kind.isPending = false := by cases e <;> first | rfl | cases composite
  have hk : e.keyed = true := by cases e <;> first | rfl | cases composite
  refine .ofSlots ?_ ⟨hp, hk, fun slot hs => (slots slot hs).2⟩ fun slot hs => (slots slot hs).1
  rintro s rfl
  cases composite

/-- A binary node is settled when its operands are values. -/
theorem settled_binary {op : BinaryOp} {left right : Expr} {type : ValueType}
    (hl : (Node.expression left).Settled schema native)
    (hr : (Node.expression right).Settled schema native)
    (leftFits : left.Fits native .value) (rightFits : right.Fits native .value) :
    (Node.expression (binary op left right type)).Settled schema native := by
  refine .ofSlots (by simp) ⟨rfl, rfl, ?_⟩ ?_
  all_goals
    intro slot hs
    simp only [slots, List.mem_cons, List.not_mem_nil, or_false] at hs
    rcases hs with rfl | rfl
    all_goals assumption

theorem settled_asValue {e : Expr} (h : (Node.expression e).Settled schema native)
    (hp : e.isPredicate = true) : (Node.expression e.asValue).Settled schema native := by
  have hs : e.asValue.slots = [(.predicate, e), (.singleValue, int 1), (.singleValue, int 0)] := rfl
  refine .ofSlots (by simp [asValue]) ⟨rfl, rfl, ?_⟩ ?_
  · have ht : e.truth? = none := by
      cases e with
      | constant => cases hp
      | _ => rfl
    intro slot mem
    rw [hs, List.mem_cons, List.mem_cons, List.mem_singleton] at mem
    rcases mem with rfl | rfl | rfl
    · exact ⟨ht, fun _ => .inl hp⟩
    · exact ⟨rfl, fun _ => rfl⟩
    · exact ⟨rfl, fun _ => rfl⟩
  · intro slot mem
    rw [hs, List.mem_cons, List.mem_cons, List.mem_singleton] at mem
    rcases mem with rfl | rfl | rfl
    · exact h
    · exact settled_int 1
    · exact settled_int 0

theorem settled_of_adapted {position : Position} {e e' : Expr}
    (h : (Node.expression e).Settled schema native)
    (fits : adapted native position e = .ok e') :
    (Node.expression e').Settled schema native := by
  rcases adapted_cases fits with rfl | ⟨hp, rfl⟩ | ⟨hp, -, rfl⟩ | ⟨value, -, rfl⟩
  · exact h
  · exact settled_asValue h hp
  · exact settled_binary h (settled_int 1) (fun _ => hp) fun _ => rfl
  · exact settled_binary (settled_int 1) (settled_int 1) (fun _ => rfl) fun _ => rfl

/-- The identity of an entity is a column or a constant, and null is its own. -/
theorem identity_eq_ok {e e' : Expr} (ready : (Node.expression e).IsReady)
    (h : e.identity = .ok e') :
    (∃ entity : Entity, e = .entity entity ∧ e' = column entity.primaryKey) ∨
      (∃ (tableAlias : String) (name : Option String) (entity : Entity),
        e = entityReference tableAlias name entity ∧
        e' = column (entity.exposedColumn tableAlias entity.primaryKey)) ∨
      (∃ type value id keyType,
        e = entityConstant type value (constant id keyType) ∧ e' = constant id keyType) ∨
      e' = e ∧ e.isNullConstant = true := by
  have null {e e' : Expr} (h : (if e.isNullConstant then .ok e
      else .error (.unsupportedExpression e.kind .comparedWithEntity) : Except Error Expr) =
        .ok e') : e' = e ∧ e.isNullConstant = true := by
    split at h
    · exact ⟨(Except.ok.inj h).symm, by assumption⟩
    · cases h
  cases e with
  | entity entity => exact .inl ⟨entity, rfl, (Except.ok.inj h).symm⟩
  | entityReference tableAlias name entity =>
    exact .inr (.inl ⟨tableAlias, name, entity, rfl, (Except.ok.inj h).symm⟩)
  | entityConstant type value key =>
    have keyed := ready.2
    cases key with
    | constant id keyType =>
      exact .inr (.inr (.inl ⟨type, value, id, keyType, rfl, (Except.ok.inj h).symm⟩))
    | _ => cases keyed
  | named n => exact absurd rfl ready.1
  | _ => exact .inr (.inr (.inr (null h)))

theorem settled_of_identity {e e' : Expr} (h : (Node.expression e).Settled schema native)
    (hi : e.identity = .ok e') : (Node.expression e').Settled schema native := by
  rcases identity_eq_ok h.ready.here hi with ⟨_, -, rfl⟩ | ⟨_, _, _, -, rfl⟩ | ⟨_, _, _, _, -, rfl⟩ |
    ⟨rfl, -⟩
  · exact settled_column _
  · exact settled_column _
  · exact settled_constant _ _
  · exact h

/-- The two sides of a comparison of entities are replaced by their identities. -/
theorem identities_eq_ok {op : BinaryOp} {left right left' right' : Expr}
    (hi : identities op left right = .ok (left', right')) :
    (((op = .equal ∨ op = .notEqual) ∧ (left.type.isEntity || right.type.isEntity)) ∧
        left.identity = .ok left' ∧ right.identity = .ok right') ∨
      ¬ ((op = .equal ∨ op = .notEqual) ∧ (left.type.isEntity || right.type.isEntity)) ∧
        left' = left ∧ right' = right := by
  unfold identities at hi
  split at hi
  · rename_i compared
    obtain ⟨leftKey, hlk, hi⟩ := Outcome.bind_eq_ok.mp hi
    obtain ⟨rightKey, hrk, hi⟩ := Outcome.bind_eq_ok.mp hi
    obtain ⟨rfl, rfl⟩ := Prod.mk.inj (Outcome.pure_eq_ok.mp hi)
    exact .inl ⟨compared, hlk, hrk⟩
  · rename_i apart
    obtain ⟨rfl, rfl⟩ := Prod.mk.inj (Except.ok.inj hi)
    exact .inr ⟨apart, rfl, rfl⟩

theorem settled_of_identities {op : BinaryOp} {left right left' right' : Expr}
    (hl : (Node.expression left).Settled schema native)
    (hr : (Node.expression right).Settled schema native)
    (hi : identities op left right = .ok (left', right')) :
    (Node.expression left').Settled schema native ∧
      (Node.expression right').Settled schema native := by
  rcases identities_eq_ok hi with ⟨-, hlk, hrk⟩ | ⟨-, rfl, rfl⟩
  · exact ⟨settled_of_identity hl hlk, settled_of_identity hr hrk⟩
  · exact ⟨hl, hr⟩

/-- A member of an entity is a step to another one or a column under the same alias, and a member
of a compound one of its expressions. -/
theorem memberOf_eq_ok {e found : Expr} {member : String} (ready : (Node.expression e).IsReady)
    (h : e.memberOf schema member = .ok found) :
    (∃ entity type, found = navigation entity member type) ∨
      (∃ c : Column, found = column c ∧ c.owner ∈ e.addressed) ∨
      ∃ members, ∃ n ∈ members, e = compound members ∧ found = n.expression := by
  cases e with
  | entity entity =>
    rcases Schema.member_eq_ok h with ⟨type, rfl⟩ | ⟨c, rfl, owner⟩
    · exact .inl ⟨entity, type, rfl⟩
    · exact .inr (.inl ⟨c, rfl, by simp [addressed, owner]⟩)
  | entityReference tableAlias name entity =>
    obtain ⟨inner, -, h⟩ := Outcome.bind_eq_ok.mp h
    split at h
    · exact .inr (.inl ⟨_, (Outcome.pure_eq_ok.mp h).symm, by simp [addressed, Entity.exposedColumn]⟩)
    · cases h
  | compound members =>
    unfold memberOf at h
    split at h
    · rename_i n found
      exact .inr (.inr
        ⟨members, n, List.mem_of_find?_eq_some found, rfl, (Except.ok.inj h).symm⟩)
    · cases h
  | named n => exact absurd rfl ready.1
  | _ => cases h

/-- What a member of a settled expression stands for can be resolved in turn. -/
theorem ready_of_memberOf {e found : Expr} {member : String}
    (h : (Node.expression e).Settled schema native) (mapped : e.memberOf schema member = .ok found) :
    (Node.expression found).Ready := by
  rcases memberOf_eq_ok h.ready.here mapped with
    ⟨entity, type, rfl⟩ | ⟨c, rfl, -⟩ | ⟨members, n, hn, rfl, rfl⟩
  · exact .ofSlots (by simp) ⟨by simp [kind], rfl⟩ (by simp [slots])
  · exact .ofSlots (by simp) ⟨by simp [kind], rfl⟩ (by simp [slots])
  · have hs : (Position.value, n.expression) ∈ (compound members).slots := List.mem_map_of_mem hn
    exact (h.slot hs).ready

end Expr

/-- The rows in scope are rows of sources. -/
def PlainRows (rows : Rows) : Prop := ∀ entry ∈ rows, ∃ tableAlias, entry.2.RowOf tableAlias

theorem PlainRows.of_lookup {rows : Rows} (h : PlainRows rows) {key : Nat} {row : Expr}
    (found : rows.lookup key = some row) : ∃ tableAlias, row.RowOf tableAlias := by
  obtain ⟨before, after, rfl, -⟩ := List.lookup_eq_some_iff.mp found
  exact h (key, row) (List.mem_append_right _ List.mem_cons_self)

theorem Table.source_eq_of_bare {table table' : Table} (h : table'.bare = table.bare) :
    table'.source = table.source := (Prod.mk.inj (Prod.mk.inj h).2).1

theorem sourceStatements_eq_of_bare {tables tables' : List Table}
    (h : tables'.map Table.bare = tables.map Table.bare) :
    sourceStatements tables' = sourceStatements tables := by
  have bare (tables : List Table) :
      sourceStatements tables = (tables.map Table.bare).filterMap fun t => t.2.1.statement? := by
    simp [sourceStatements, List.filterMap_map, Table.bare, Function.comp_def]
  rw [bare, bare, h]

theorem Statement.slots_eq {s : Statement} {projection root : Expr}
    (h : s.projection = projection.renamed root)
    (settled : (Node.expression root).Settled schema native) :
    s.slots = (.value, root) :: s.clauses := by
  have hn : root.kind ≠ .named := settled.ready.here.1
  rw [slots, h, Expr.unnamed_renamed hn]

/-- Right below a statement stand the slots that were resolved, and the statements of the sources
that it had before joins were added. -/
theorem Statement.children_eq {s : Statement} {projection root : Expr} {tables : List Table}
    (h : s.projection = projection.renamed root)
    (settled : (Node.expression root).Settled schema native)
    (bare : s.tables.map Table.bare = tables.map Table.bare) :
    (Node.statement s).children =
      ((Position.value, root) :: s.clauses).map (fun slot => .expression slot.2) ++
        (sourceStatements tables).map .statement := by
  rw [Node.children, slots_eq h settled, sourceStatements_eq_of_bare bare]

/-- What a rule makes of trees that resolution may start from. The tables of a statement only ever
get more joins. -/
def Settles (schema : Schema) (native : Bool) : Judgement → Prop
  | .expression rows _ e tables _ e' tables' _ =>
    PlainRows rows → (Node.expression e).Ready → Linked tables →
      (Node.expression e').Settled schema native ∧ Linked tables' ∧
        tables'.map Table.bare = tables.map Table.bare
  | .fitted rows position e tables _ e' tables' _ =>
    PlainRows rows → (Node.expression e).Ready → Linked tables →
      ((Node.expression e').Settled schema native ∧ e'.Fits native position) ∧ Linked tables' ∧
        tables'.map Table.bare = tables.map Table.bare
  | .slots rows slots tables _ slots' tables' _ =>
    PlainRows rows → (∀ slot ∈ slots, (Node.expression slot.2).Ready) → Linked tables →
      (∀ slot ∈ slots',
        (Node.expression slot.2).Settled schema native ∧ slot.2.Fits native slot.1) ∧
      Linked tables' ∧ tables'.map Table.bare = tables.map Table.bare
  | .source rows source _ source' _ =>
    PlainRows rows → (∀ s, source.statement? = some s → (Node.statement s).Ready) →
      ∀ s, source'.statement? = some s → (Node.statement s).Settled schema native
  | .tables rows tables _ tables' rows' _ =>
    PlainRows rows → (∀ s ∈ sourceStatements tables, (Node.statement s).Ready) →
      PlainRows rows' ∧
      (∀ s ∈ sourceStatements tables', (Node.statement s).Settled schema native) ∧
      (∀ table ∈ tables', ∃ row, table.source.row schema .sourceLeftUnresolved = .ok row) ∧
      tableLinks tables' = tableLinks tables
  | .statement rows s _ s' _ =>
    PlainRows rows → (Node.statement s).Ready → (Node.statement s').Settled schema native

variable {rows rows' : Rows} {position : Position} {tables tables₁ tables' : List Table}
  {f f₁ f' : Fresh}

theorem Settles.table {key : Nat} {source source' : Source} {kind : JoinKind} {joins : List Join}
    {row : Expr} (exposed : source'.row schema .sourceLeftUnresolved = .ok row)
    (ihFirst : Settles schema native (.source rows source f source' f₁))
    (ihRest : Settles schema native (.tables ((key, row) :: rows) tables f₁ tables' rows' f')) :
    Settles schema native (.tables rows (⟨key, source, kind, joins⟩ :: tables) f
      (⟨key, source', kind, joins⟩ :: tables') rows' f') := by
  intro plain ready
  obtain ⟨tableAlias, -, row⟩ := Source.row_eq_ok exposed
  have settled := ihFirst plain fun s hs =>
    ready s (List.mem_filterMap.mpr ⟨_, List.mem_cons_self, hs⟩)
  obtain ⟨plain', others, rows, links⟩ := ihRest (List.forall_mem_cons.mpr ⟨⟨_, row⟩, plain⟩)
    fun s hs => ready s (mem_sourceStatements_cons.mpr (.inr hs))
  refine ⟨plain', fun s hs => ?_, List.forall_mem_cons.mpr ⟨⟨_, exposed⟩, rows⟩, ?_⟩
  · rcases mem_sourceStatements_cons.mp hs with hs | hs
    · exact settled s hs
    · exact others s hs
  · rw [tableLinks_cons, tableLinks_cons, links]

theorem Settles.statement {s s' : Statement} {root : Expr} {tables₂ : List Table} {f₂ : Fresh}
    (joins : resolveTableJoins (Mapping.ofSchema schema) tables₁ f₁ = .ok (tables₂, f₂))
    (projection : s'.projection = s.projection.renamed root)
    (condition : ∀ c, s'.condition = some c → c.type.isBoolean = true)
    (ihSources : Settles schema native (.tables rows s.tables f tables₁ rows' f₁))
    (ihSlots : Settles schema native
      (.slots rows' s.slots tables₂ f₂ ((.value, root) :: s'.clauses) s'.tables f')) :
    Settles schema native (.statement rows s f s' f') := by
  intro plain ready
  obtain ⟨plain₁, settled, rows, links⟩ := ihSources plain fun s hs =>
    ready.child (List.mem_append_right _ (List.mem_map_of_mem hs))
  have linked₁ := Linked.of_links ready.here links
  rw [resolveTableJoins_of_linked _ linked₁] at joins
  obtain ⟨rfl, rfl⟩ := Supply.pure_eq_ok.mp joins
  obtain ⟨fitted, linked', bare⟩ := ihSlots plain₁
    (fun slot hs => ready.child (List.mem_append_left _ (List.mem_map_of_mem hs))) linked₁
  have hs := Statement.slots_eq projection (fitted _ List.mem_cons_self).1
  refine .intro ⟨linked', fun slot mem => (fitted slot (hs ▸ mem)).2, fun table mem => ?_,
    condition⟩ fun child hc => ?_
  · obtain ⟨table₁, mem₁, same⟩ := List.mem_map.mp (bare ▸ List.mem_map_of_mem mem)
    obtain ⟨row, hr⟩ := rows table₁ mem₁
    exact ⟨row, (Table.source_eq_of_bare same) ▸ hr⟩
  · rcases List.mem_append.mp hc with hc | hc
    · obtain ⟨slot, mem, rfl⟩ := List.mem_map.mp hc
      exact (fitted slot (hs ▸ mem)).1
    · obtain ⟨s, mem, rfl⟩ := List.mem_map.mp hc
      exact settled s (sourceStatements_eq_of_bare bare ▸ mem)

theorem Resolved.settles {j : Judgement} (h : Resolved schema native j) :
    Settles schema native j := by
  induction h with
  | leaf leaf =>
    intro _ ready linked
    exact ⟨Expr.settled_leaf leaf ready, linked, rfl⟩
  | constant mapped =>
    intro _ _ linked
    refine ⟨?_, linked, rfl⟩
    rcases Schema.constant_eq_ok mapped with ⟨_, _, _, -, rfl⟩ | ⟨-, rfl⟩
    · exact .ofSlots (by simp) ⟨rfl, rfl, by simp [Expr.slots]⟩ (by simp [Expr.slots])
    · exact Expr.settled_constant _ _
  | tableReference found =>
    intro plain _ linked
    obtain ⟨tableAlias, row⟩ := plain.of_lookup found
    exact ⟨row.settled, linked, rfl⟩
  | member owner mapped again ihOwner ihAgain =>
    intro plain ready linked
    obtain ⟨⟨settled, -⟩, linked₁, bare₁⟩ := ihOwner plain (ready.slot List.mem_cons_self) linked
    obtain ⟨settled', linked', bare'⟩ := ihAgain plain (Expr.ready_of_memberOf settled mapped) linked₁
    exact ⟨settled', linked', bare'.trans bare₁⟩
  | navigation followed =>
    intro _ _ linked
    obtain ⟨-, target, exposed, step⟩ := Entity.navigate_eq_ok linked followed
    obtain ⟨tableAlias, -, row⟩ := Source.row_eq_ok exposed
    refine ⟨row.settled, ?_⟩
    rcases step with ⟨rfl, -, -⟩ | ⟨-, bare, links⟩
    · exact ⟨linked, rfl⟩
    · exact ⟨linked.append links, bare⟩
  | binary first second compared leftFits rightFits ihFirst ihSecond =>
    intro plain ready linked
    obtain ⟨⟨left, -⟩, linked₁, bare₁⟩ := ihFirst plain (ready.slot List.mem_cons_self) linked
    obtain ⟨⟨right, -⟩, linked', bare'⟩ :=
      ihSecond plain (ready.slot (List.mem_cons_of_mem _ List.mem_cons_self)) linked₁
    obtain ⟨left, right⟩ := Expr.settled_of_identities left right compared
    refine ⟨Expr.settled_binary (Expr.settled_of_adapted left leftFits)
      (Expr.settled_of_adapted right rightFits) ?_ ?_, linked', bare'.trans bare₁⟩
    · exact (Expr.fits_of_adapted leftFits).2
    · exact (Expr.fits_of_adapted rightFits).2
  | composite composite kind type isPredicate wording labels slots ih =>
    intro plain ready linked
    obtain ⟨settled, state⟩ := ih plain (fun _ hs => ready.slot hs) linked
    exact ⟨Expr.settled_composite (kind ▸ composite) settled, state⟩
  | named inner ih =>
    intro _ ready
    exact absurd rfl ready.here.1
  | subStatement inner ih =>
    intro plain ready linked
    have settled := ih plain (ready.child List.mem_cons_self)
    refine ⟨.intro ⟨rfl, rfl, by simp [Expr.slots]⟩ fun child hc => ?_, linked, rfl⟩
    obtain rfl := List.mem_singleton.mp hc
    exact settled
  | fitted resolved fits ih =>
    intro plain ready linked
    obtain ⟨settled, state⟩ := ih plain ready linked
    exact ⟨⟨Expr.settled_of_adapted settled fits, Expr.fits_of_adapted fits⟩, state⟩
  | noSlot =>
    intro _ _ linked
    exact ⟨by simp, linked, rfl⟩
  | slot first rest ihFirst ihRest =>
    intro plain ready linked
    obtain ⟨settled, linked₁, bare₁⟩ := ihFirst plain (ready _ List.mem_cons_self) linked
    obtain ⟨others, linked', bare'⟩ :=
      ihRest plain (fun slot hs => ready slot (List.mem_cons_of_mem _ hs)) linked₁
    exact ⟨List.forall_mem_cons.mpr ⟨settled, others⟩, linked', bare'.trans bare₁⟩
  | unresolvedSource mapped =>
    intro _ _ s hs
    obtain ⟨mapping, -, rfl, -⟩ := Mapping.source_eq_ok mapped
    cases hs
  | tableSource =>
    intro _ _ s hs
    cases hs
  | statementSource inner ih =>
    intro plain ready s hs
    obtain rfl := Option.some.inj hs
    exact ih plain (ready _ rfl)
  | noTable =>
    intro plain _
    exact ⟨plain, by simp [sourceStatements], by simp, rfl⟩
  | table first exposed rest ihFirst ihRest => exact .table exposed ihFirst ihRest
  | statement sources joins slots projection shape isDistinct condition ihSources ihSlots =>
    exact .statement joins projection condition ihSources ihSlots

/-- Once the sources of a statement are resolved, its joins are mapped as they are, and its slots can
be resolved. -/
theorem Resolved.slots_ready {rows rows₁ : Rows} {s : Statement} {tables₁ tables₂ : List Table}
    {f f₁ f₂ : Fresh} (sources : Resolved schema native (.tables rows s.tables f tables₁ rows₁ f₁))
    (joins : resolveTableJoins (Mapping.ofSchema schema) tables₁ f₁ = .ok (tables₂, f₂))
    (plain : PlainRows rows) (ready : (Node.statement s).Ready) :
    (tables₂ = tables₁ ∧ f₂ = f₁) ∧ PlainRows rows₁ ∧ Linked tables₁ ∧
      ∀ slot ∈ s.slots, (Node.expression slot.2).Ready := by
  obtain ⟨plain₁, -, -, links⟩ := sources.settles plain fun s hs =>
    ready.child (List.mem_append_right _ (List.mem_map_of_mem hs))
  have linked := Linked.of_links ready.here links
  rw [resolveTableJoins_of_linked _ linked] at joins
  obtain ⟨rfl, rfl⟩ := Supply.pure_eq_ok.mp joins
  exact ⟨⟨rfl, rfl⟩, plain₁, linked, fun slot hs =>
    ready.child (List.mem_append_left _ (List.mem_map_of_mem hs))⟩

/-- A statement that is ready is settled once it is resolved. -/
theorem Statement.settled_of_resolve {s s' : Statement} {f f' : Fresh}
    (ready : (Node.statement s).Ready)
    (h : s.resolve (Mapping.ofSchema schema) native f = .ok (s', f')) :
    (Node.statement s').Settled schema native :=
  (Statement.resolved_of_resolve h).settles (by simp [PlainRows]) ready

end Comprehension.Sql
