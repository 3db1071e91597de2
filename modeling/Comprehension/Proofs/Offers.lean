import Comprehension.Proofs.ColumnNames

/-!
Which columns the tables around an expression offer. A table offers whatever is asked of it, and a
statement in the place of a table the columns of its projection. Every column that a resolved
statement addresses is offered, and every entity in it has all the columns of its type.
-/
namespace Comprehension.Sql

/-- Which columns can be addressed, by an alias and a name. -/
abbrev Offer := String → String → Prop

def Source.Offers : Source → Offer
  | .unresolved _, _, _ => False
  | .table _ _ tableAlias, a, _ => a = tableAlias
  | .statement tableAlias s, a, name => a = tableAlias ∧ name ∈ s.projection.columnNames

def Link.source? : Link → Option Source
  | .unresolved .. => none
  | .resolved source _ _ => some source

/-- The sources of tables and of all joins below them. -/
def tableSources (tables : List Table) : List Source :=
  tables.map Table.source ++ (tableLinks tables).filterMap Link.source?

namespace Offer

/-- What some sources offer besides what is offered already. -/
def extend (offer : Offer) (sources : List Source) : Offer := fun a name =>
  (∃ source ∈ sources, source.Offers a name) ∨ offer a name

/-- What is offered in a statement with some tables. -/
def under (offer : Offer) (tables : List Table) : Offer := offer.extend (tableSources tables)

variable {offer : Offer}

theorem extend_cons (offer : Offer) (source : Source) (sources : List Source) :
    offer.extend (source :: sources) = (offer.extend [source]).extend sources := by
  funext a name
  simp only [extend, List.mem_cons, List.not_mem_nil, or_false, exists_eq_or_imp, exists_eq_left]
  grind

theorem extend_of_mem {source : Source} {sources : List Source} (h : source ∈ sources)
    {a name : String} (offers : source.Offers a name) : offer.extend sources a name :=
  .inl ⟨source, h, offers⟩

theorem extend_mono {sources sources' : List Source} (h : sources ⊆ sources') {a name : String}
    (offered : offer.extend sources a name) : offer.extend sources' a name := by
  rcases offered with ⟨source, hs, offers⟩ | offered
  · exact .inl ⟨source, h hs, offers⟩
  · exact .inr offered

end Offer

namespace Expr

/-- The columns that a node itself addresses. -/
def reads : Expr → List (String × String)
  | column c => [(c.owner, c.name)]
  | entity e | navigation e _ _ =>
    e.columns.flatMap fun c => [(e.tableAlias, c.name), (c.owner, c.name)]
  | entityReference tableAlias _ e => e.columns.map fun c => (tableAlias, exposedName e.name c.name)
  | _ => []

def entity? : Expr → Option Entity
  | entity e | navigation e _ _ | entityReference _ _ e => some e
  | _ => none

end Expr

/-- Whether an entity has all the columns of its type. -/
def Entity.IsWhole (schema : Schema) (e : Entity) : Prop :=
  schema.entity e.itemType e.tableAlias = .ok { e with name := none }

/-- What is known of a node: its text comes from the lists, its columns are offered, and its entity
is whole. -/
structure Expr.IsServed (schema : Schema) (offer : Offer) (e : Expr) : Prop where
  worded : e.IsWorded
  offered : ∀ read ∈ e.reads, offer read.1 read.2
  whole : ∀ entity, e.entity? = some entity → entity.IsWhole schema

/-- Whether a link joins a table on two columns that are offered. -/
def Link.IsServed (offer : Offer) : Link → Prop
  | .resolved (.table ..) (.column left) (.column right) =>
    offer left.owner left.name ∧ offer right.owner right.name
  | _ => False

/-- Whether all columns in a tree are offered. An expression sees the tables and joins of its own
statement and of those around it, and a statement in a list of sources the sources before it. -/
inductive Served (schema : Schema) : Offer → Node → Prop where
  | expression {offer : Offer} {e : Expr} (here : e.IsServed schema offer)
      (below : ∀ child ∈ (Node.expression e).children, Served schema offer child) :
      Served schema offer (.expression e)
  | statement {offer : Offer} {s : Statement}
      (links : ∀ link ∈ tableLinks s.tables, link.IsServed (offer.under s.tables))
      (columned : ∀ inner ∈ sourceStatements s.tables, inner.projection.isColumned = true)
      (slots : ∀ slot ∈ s.slots, Served schema (offer.under s.tables) (.expression slot.2))
      (sources : ∀ before table after inner, s.tables = before ++ table :: after →
        table.source.statement? = some inner →
        Served schema (offer.extend (before.map Table.source)) (.statement inner)) :
      Served schema offer (.statement s)

variable {schema : Schema} {native : Bool} {offer offer' : Offer}

theorem Link.IsServed.mono {link : Link} (h : link.IsServed offer)
    (hv : ∀ a name, offer a name → offer' a name) : link.IsServed offer' := by
  unfold Link.IsServed at h ⊢
  split
  · exact ⟨hv _ _ h.1, hv _ _ h.2⟩
  · rename_i hl
    split at h
    · exact hl _ _ _ _ _ rfl
    · exact h

theorem Offer.extend_first {source source' : Source}
    (h : ∀ a name, source.Offers a name → source'.Offers a name) (a name : String)
    (offered : offer.extend [source] a name) : offer.extend [source'] a name := by
  rcases offered with ⟨s, hs, offers⟩ | offered
  · obtain rfl := List.mem_singleton.mp hs
    exact extend_of_mem List.mem_cons_self (h a name offers)
  · exact .inr offered

theorem Offer.extend_le (sources : List Source) (hv : ∀ a name, offer a name → offer' a name)
    (a name : String) (h : offer.extend sources a name) : offer'.extend sources a name :=
  h.imp_right (hv a name)

namespace Served

theorem mono {n : Node} (h : Served schema offer n)
    (hv : ∀ a name, offer a name → offer' a name) : Served schema offer' n := by
  induction h generalizing offer' with
  | expression here below ih =>
    exact .expression ⟨here.worded, fun read hr => hv _ _ (here.offered read hr), here.whole⟩
      fun child hc => ih child hc hv
  | statement links columned slots sources ihSlots ihSources =>
    have inside (tables : List Source) := Offer.extend_le tables hv
    exact .statement (fun link hl => (links link hl).mono (inside _)) columned
      (fun slot hs => ihSlots slot hs (inside _))
      fun before table after inner split nested =>
        ihSources before table after inner split nested (inside _)

theorem here {e : Expr} (h : Served schema offer (.expression e)) : e.IsServed schema offer := by
  cases h with
  | expression here below => exact here

theorem child {e : Expr} (h : Served schema offer (.expression e)) {n : Node}
    (hc : n ∈ (Node.expression e).children) : Served schema offer n := by
  cases h with
  | expression here below => exact below n hc

theorem slot {e : Expr} (h : Served schema offer (.expression e)) {slot : Position × Expr}
    (hs : slot ∈ e.slots) : Served schema offer (.expression slot.2) := by
  refine h.child ?_
  cases e with
  | subStatement s => cases hs
  | _ => exact List.mem_map_of_mem hs

theorem ofSlots {e : Expr} (h : ∀ s, e ≠ .subStatement s) (here : e.IsServed schema offer)
    (slots : ∀ slot ∈ e.slots, Served schema offer (.expression slot.2)) :
    Served schema offer (.expression e) := by
  refine .expression here fun child hc => ?_
  rw [Node.children_expression h] at hc
  obtain ⟨slot, hs, rfl⟩ := List.mem_map.mp hc
  exact slots slot hs

/-- A node that addresses nothing and writes no text of its own. -/
theorem silent {e : Expr} (h : ∀ s, e ≠ .subStatement s) (wording : e.wording = none)
    (reads : e.reads = []) (entity : e.entity? = none)
    (slots : ∀ slot ∈ e.slots, Served schema offer (.expression slot.2)) :
    Served schema offer (.expression e) :=
  .ofSlots h ⟨Expr.worded_of_wording_eq_none wording, by simp [reads], by simp [entity]⟩ slots

theorem int (n : Int) : Served schema offer (.expression (.int n)) :=
  .silent (by simp [Expr.int]) rfl rfl rfl (by simp [Expr.slots, Expr.int])

theorem constant (value : Value) (type : ValueType) :
    Served schema offer (.expression (.constant value type)) :=
  .silent (by simp) rfl rfl rfl (by simp [Expr.slots])

theorem column {c : Column} (h : offer c.owner c.name) :
    Served schema offer (.expression (.column c)) :=
  .ofSlots (by simp)
    ⟨Expr.worded_of_wording_eq_none rfl, List.forall_mem_singleton.mpr h, nofun⟩ (by simp [Expr.slots])

theorem binary {op : BinaryOp} {left right : Expr} {type : ValueType}
    (hl : Served schema offer (.expression left)) (hr : Served schema offer (.expression right)) :
    Served schema offer (.expression (.binary op left right type)) := by
  refine .silent (by simp) rfl rfl rfl ?_
  simpa [Expr.slots] using ⟨hl, hr⟩

theorem composite {e e' : Expr} (composite : e.kind.isComposite = true) (kind : e'.kind = e.kind)
    (wording : e'.wording = e.wording) (worded : e.IsWorded)
    (slots : ∀ slot ∈ e'.slots, Served schema offer (.expression slot.2)) :
    Served schema offer (.expression e') := by
  rw [← kind] at composite
  have reads : e'.reads = [] := by cases e' <;> first | rfl | cases composite
  have entity : e'.entity? = none := by cases e' <;> first | rfl | cases composite
  refine .ofSlots ?_ ⟨?_, by simp [reads], by simp [entity]⟩ slots
  · rintro s rfl
    cases composite
  · intro text written
    rw [kind]
    exact worded text (wording ▸ written)

end Served

namespace Entity.IsWhole

variable {e : Entity}

/-- The columns of a whole entity are those that its type has under its alias. -/
theorem column_mem (whole : e.IsWhole schema) {mapping : TypeMapping}
    (typed : schema.typeMapping e.itemType = .ok mapping) {member : String} {c : Column}
    (mapped : mapping.column e.itemType member e.tableAlias = .ok c) : c ∈ e.columns := by
  obtain ⟨mapping', key, typed', -, same⟩ := Schema.entity_eq_ok whole
  obtain rfl := Except.ok.inj (typed'.symm.trans typed)
  obtain ⟨column, found, rfl⟩ := TypeMapping.column_eq_ok mapped
  have columns := congrArg Entity.columns same
  dsimp only at columns
  rw [columns]
  exact List.mem_map_of_mem (List.mem_of_find?_eq_some found)

theorem primaryKey_mem (whole : e.IsWhole schema) : e.primaryKey ∈ e.columns := by
  obtain ⟨mapping, key, -, found, same⟩ := Schema.entity_eq_ok whole
  have columns := congrArg Entity.columns same
  have primaryKey := congrArg Entity.primaryKey same
  dsimp only at columns primaryKey
  rw [columns, primaryKey]
  exact List.mem_map_of_mem (List.mem_of_find?_eq_some found)

theorem owner_eq (whole : e.IsWhole schema) {c : Column} (hc : c ∈ e.columns) :
    c.owner = e.tableAlias := by
  obtain ⟨mapping, key, -, -, same⟩ := Schema.entity_eq_ok whole
  have columns := congrArg Entity.columns same
  dsimp only at columns
  rw [columns] at hc
  obtain ⟨column, -, rfl⟩ := List.mem_map.mp hc
  rfl

/-- A member of a whole entity is a step from it, or one of its columns. -/
theorem member_cases (whole : e.IsWhole schema) {name : String} {found : Expr}
    (h : schema.member e name = .ok found) :
    (∃ type, found = .navigation e name type) ∨ ∃ c ∈ e.columns, found = .column c := by
  obtain ⟨mapping, typed, h⟩ := Outcome.bind_eq_ok.mp h
  split at h
  · exact .inl ⟨_, (Outcome.pure_eq_ok.mp h).symm⟩
  · obtain ⟨c, mapped, h⟩ := Outcome.bind_eq_ok.mp h
    exact .inr ⟨c, whole.column_mem typed mapped, (Outcome.pure_eq_ok.mp h).symm⟩

end Entity.IsWhole

section Rows

variable {tableAlias : String}

/-- An entity that a statement exposes under a name. -/
theorem Served.reference {name : Option String} {e : Entity} (whole : e.IsWhole schema)
    (offered : ∀ c ∈ e.columns, offer tableAlias (exposedName name c.name)) :
    Served schema offer (.expression (.entityReference tableAlias name { e with name })) := by
  refine .ofSlots (by simp) ⟨Expr.worded_of_wording_eq_none rfl, fun read hr => ?_, fun e' he => ?_⟩
    (by simp [Expr.slots])
  · obtain ⟨c, hc, rfl⟩ := List.mem_map.mp hr
    exact offered c hc
  · obtain rfl := Option.some.inj he
    exact whole

theorem Named.served_exposed {n : Named} (known : n.expression.kind.isPending = false)
    (whole : ∀ e, n.expression.entity? = some e → e.IsWhole schema)
    (offered : ∀ name ∈ n.columnNames, offer tableAlias name) :
    Served schema offer (.expression (n.exposed tableAlias)) := by
  obtain ⟨name, e⟩ := n
  have computed (h : Named.columnNames ⟨name, e⟩ = [Named.effectiveName ⟨name, e⟩]) (type : ValueType) :
      Served schema offer
        (.expression (.column ⟨type, tableAlias, Named.effectiveName ⟨name, e⟩, false⟩)) :=
    .column (offered _ (by simp [h]))
  cases e with
  | entity e =>
    exact .reference (whole e rfl) fun c hc => offered _ (List.mem_map_of_mem hc)
  | entityReference a label e =>
    exact .reference (whole e rfl) fun c hc => offered _ (List.mem_map_of_mem hc)
  | tableReference | member | navigation | call | named => cases known
  | _ => exact computed rfl _

/-- What a statement exposes is offered under its alias. -/
theorem Expr.served_exposed {projection : Expr} {around : Offer}
    (settled : (Node.expression projection.unnamed).Settled schema native)
    (served : Served schema around (.expression projection.unnamed))
    (offered : ∀ name ∈ projection.columnNames, offer tableAlias name) :
    Served schema offer (.expression (projection.exposed tableAlias)) := by
  cases projection with
  | named n =>
    obtain ⟨name, e⟩ := n
    exact Named.served_exposed settled.here.1 served.here.whole offered
  | compound members =>
    refine .silent (by simp [exposed]) rfl rfl rfl fun slot hs => ?_
    obtain ⟨exposed, he, rfl⟩ := List.mem_map.mp hs
    obtain ⟨n, hn, rfl⟩ := List.mem_map.mp he
    have mem : (Position.value, n.expression) ∈ (Expr.compound members).slots :=
      List.mem_map_of_mem hn
    exact Named.served_exposed (settled.slot mem).here.1 (served.slot mem).here.whole
      fun name hc => offered name (List.mem_flatMap.mpr ⟨n, hn, hc⟩)
  | entity e =>
    have whole := served.here.whole e rfl
    exact .reference whole fun c hc => offered _ (List.mem_map_of_mem hc)
  | entityReference a name e =>
    have whole := served.here.whole e rfl
    exact .reference whole fun c hc => offered _ (List.mem_map_of_mem hc)
  | column c => exact .column (offered _ List.mem_cons_self)
  | tableReference | member | navigation | call => cases settled.here.1
  | _ => exact .column (offered _ List.mem_cons_self)

theorem Source.served_tableRow {itemType tableName : String} {unresolved : String → Violation}
    {row : Expr} (h : (Source.table itemType tableName tableAlias).row schema unresolved = .ok row)
    (offered : ∀ name, offer tableAlias name) : Served schema offer (.expression row) := by
  obtain ⟨e, he, h⟩ := Outcome.bind_eq_ok.mp h
  obtain rfl := Outcome.pure_eq_ok.mp h
  obtain ⟨mapping, key, -, -, rfl⟩ := Schema.entity_eq_ok he
  refine .ofSlots (by simp) ⟨Expr.worded_of_wording_eq_none rfl, fun read hr => ?_, fun e hs => ?_⟩
    (by simp [Expr.slots])
  · obtain ⟨c, hc, hr⟩ := List.mem_flatMap.mp hr
    obtain ⟨column, -, rfl⟩ := List.mem_map.mp hc
    simp only [List.mem_cons, List.not_mem_nil, or_false, TypeMapping.ownedColumn, or_self] at hr
    subst hr
    exact offered _
  · obtain rfl := Option.some.inj hs
    exact he

/-- The rows of a source are made of the columns that it offers. -/
theorem Source.served_row {source : Source} {unresolved : String → Violation} {row : Expr}
    {around : Offer} (h : source.row schema unresolved = .ok row)
    (settled : ∀ s, source.statement? = some s → (Node.statement s).Settled schema native)
    (served : ∀ s, source.statement? = some s → Served schema around (.statement s))
    (offered : ∀ a name, source.Offers a name → offer a name) :
    Served schema offer (.expression row) := by
  cases source with
  | unresolved itemType => cases h
  | table itemType tableName tableAlias => exact served_tableRow h fun name => offered _ name rfl
  | statement tableAlias s =>
    obtain rfl := Except.ok.inj h
    have child : Node.expression s.projection.unnamed ∈ (Node.statement s).children :=
      List.mem_append_left _ List.mem_cons_self
    cases served s rfl with
    | statement links columned slots sources =>
      exact Expr.served_exposed ((settled s rfl).child child) (slots _ List.mem_cons_self)
        fun name hn => offered _ _ ⟨rfl, hn⟩

end Rows

namespace Expr

theorem served_of_adapted {position : Position} {e e' : Expr}
    (h : Served schema offer (.expression e)) (fits : adapted native position e = .ok e') :
    Served schema offer (.expression e') := by
  rcases adapted_cases fits with rfl | ⟨-, rfl⟩ | ⟨-, -, rfl⟩ | ⟨value, -, rfl⟩
  · exact h
  · refine .silent (by simp [asValue]) rfl rfl rfl ?_
    simp [asValue, slots, h, Served.int]
  · exact .binary h (.int 1)
  · exact .binary (.int 1) (.int 1)

theorem served_of_identity {e e' : Expr} (ready : (Node.expression e).IsReady)
    (h : Served schema offer (.expression e)) (hi : e.identity = .ok e') :
    Served schema offer (.expression e') := by
  rcases identity_eq_ok ready hi with ⟨entity, rfl, rfl⟩ | ⟨tableAlias, name, entity, rfl, rfl⟩ |
    ⟨_, _, _, _, rfl, rfl⟩ | ⟨rfl, -⟩
  · have key := (h.here.whole entity rfl).primaryKey_mem
    exact .column (h.here.offered (_, _) (List.mem_flatMap.mpr ⟨_, key, by simp⟩))
  · have key := (h.here.whole entity rfl).primaryKey_mem
    exact .column (h.here.offered (_, _) (List.mem_map_of_mem key))
  · exact .constant _ _
  · exact h

theorem served_of_identities {op : BinaryOp} {left right left' right' : Expr}
    (leftReady : (Node.expression left).IsReady) (rightReady : (Node.expression right).IsReady)
    (hl : Served schema offer (.expression left)) (hr : Served schema offer (.expression right))
    (hi : identities op left right = .ok (left', right')) :
    Served schema offer (.expression left') ∧ Served schema offer (.expression right') := by
  rcases identities_eq_ok hi with ⟨-, hlk, hrk⟩ | ⟨-, rfl, rfl⟩
  · exact ⟨served_of_identity leftReady hl hlk, served_of_identity rightReady hr hrk⟩
  · exact ⟨hl, hr⟩

theorem served_of_memberOf {e found : Expr} {member : String}
    (ready : (Node.expression e).IsReady) (h : Served schema offer (.expression e))
    (mapped : e.memberOf schema member = .ok found) : Served schema offer (.expression found) := by
  cases e with
  | entity entity =>
    have whole := h.here.whole entity rfl
    rcases whole.member_cases mapped with ⟨type, rfl⟩ | ⟨c, hc, rfl⟩
    · exact .ofSlots (by simp)
        ⟨worded_of_wording_eq_none rfl, h.here.offered, h.here.whole⟩ (by simp [slots])
    · exact .column (h.here.offered (_, _) (List.mem_flatMap.mpr ⟨c, hc, by simp⟩))
  | entityReference tableAlias name entity =>
    have whole := h.here.whole entity rfl
    obtain ⟨inner, hm, mapped⟩ := Outcome.bind_eq_ok.mp mapped
    rcases whole.member_cases hm with ⟨type, rfl⟩ | ⟨c, hc, rfl⟩
    · cases mapped
    · obtain rfl := Outcome.pure_eq_ok.mp mapped
      exact .column (h.here.offered (_, _) (List.mem_map_of_mem hc))
  | compound members =>
    unfold memberOf at mapped
    split at mapped
    · rename_i n found
      obtain rfl := Except.ok.inj mapped
      have mem : (Position.value, n.expression) ∈ (compound members).slots :=
        List.mem_map_of_mem (List.mem_of_find?_eq_some found)
      exact h.slot mem
    · cases mapped
  | named n => exact absurd rfl ready.1
  | _ => cases mapped

end Expr

def RowsServed (schema : Schema) (offer : Offer) (rows : Rows) : Prop :=
  ∀ entry ∈ rows, Served schema offer (.expression entry.2)

def LinksServed (offer : Offer) (tables : List Table) : Prop :=
  ∀ link ∈ tableLinks tables, link.IsServed (offer.under tables)

/-- Each statement among the sources sees what is offered and the sources before it. -/
def SourcesServed (schema : Schema) (offer : Offer) (tables : List Table) : Prop :=
  ∀ before table after inner, tables = before ++ table :: after →
    table.source.statement? = some inner →
    Served schema (offer.extend (before.map Table.source)) (.statement inner)

theorem RowsServed.mono {rows : Rows} (h : RowsServed schema offer rows)
    (hv : ∀ a name, offer a name → offer' a name) : RowsServed schema offer' rows :=
  fun entry he => (h entry he).mono hv

theorem SourcesServed.mono {tables : List Table} (h : SourcesServed schema offer tables)
    (hv : ∀ a name, offer a name → offer' a name) : SourcesServed schema offer' tables :=
  fun before table after inner split nested =>
    (h before table after inner split nested).mono (Offer.extend_le _ hv)

theorem sourcesServed_cons {table : Table} {tables : List Table} :
    SourcesServed schema offer (table :: tables) ↔
      (∀ s, table.source.statement? = some s → Served schema offer (.statement s)) ∧
        SourcesServed schema (offer.extend [table.source]) tables := by
  have none : offer.extend [] = offer := by
    funext a name
    simp [Offer.extend]
  constructor
  · intro h
    refine ⟨fun s hs => ?_, fun before t after inner split nested => ?_⟩
    · have first := h [] table tables s rfl hs
      rwa [List.map_nil, none] at first
    · have later := h (table :: before) t after inner (by rw [split]; rfl) nested
      rwa [List.map_cons, Offer.extend_cons] at later
  · rintro ⟨first, rest⟩ before t after inner split nested
    cases before with
    | nil =>
      obtain ⟨rfl, rfl⟩ := List.cons.inj split
      rw [List.map_nil, none]
      exact first inner nested
    | cons b before =>
      obtain ⟨rfl, splitRest⟩ := List.cons.inj split
      rw [List.map_cons, Offer.extend_cons]
      exact rest before t after inner splitRest nested

theorem sources_eq_of_bare {tables tables' : List Table}
    (h : tables'.map Table.bare = tables.map Table.bare) :
    tables'.map Table.source = tables.map Table.source := by
  have bare (tables : List Table) :
      tables.map Table.source = (tables.map Table.bare).map fun t => t.2.1 := by
    simp [Table.bare]
  rw [bare, bare, h]

theorem SourcesServed.of_bare {tables tables' : List Table} (h : SourcesServed schema offer tables)
    (bare : tables'.map Table.bare = tables.map Table.bare) :
    SourcesServed schema offer tables' := by
  rintro before table after inner rfl nested
  rw [List.map_append, List.map_cons] at bare
  obtain ⟨before', rest, rfl, hb, hrest⟩ := List.map_eq_append_iff.mp bare.symm
  obtain ⟨table', after', rfl, ht, -⟩ := List.map_eq_cons_iff.mp hrest
  rw [← Table.source_eq_of_bare ht] at nested
  rw [← sources_eq_of_bare hb]
  exact h before' table' after' inner rfl nested

/-- A join that is added to tables adds its source. -/
theorem tableSources_append {tables tables' : List Table} {target : JoinTarget}
    (bare : tables'.map Table.bare = tables.map Table.bare)
    (links : (tableLinks tables').Perm (tableLinks tables ++ [target.link])) :
    (tableSources tables').Perm (tableSources tables ++ [target.source]) := by
  rw [tableSources, tableSources, sources_eq_of_bare bare, List.append_assoc]
  refine List.Perm.append_left _ ((links.filterMap _).trans ?_)
  rw [List.filterMap_append]
  exact List.Perm.refl _

/-- What a resolution makes of trees in a statement with tables: the tables offer what they did
before, and all columns are offered by them or around them. -/
structure Provided (schema : Schema) (offer : Offer) (tables tables' : List Table)
    (ns : List Node) : Prop where
  kept : ∀ a name, offer.under tables a name → offer.under tables' a name
  links : LinksServed offer tables'
  served : ∀ n ∈ ns, Served schema (offer.under tables') n

namespace Provided

variable {tables tables₁ tables' : List Table} {ns ns' : List Node}

theorem unchanged {n : Node} (links : LinksServed offer tables)
    (served : Served schema (offer.under tables) n) : Provided schema offer tables tables [n] :=
  ⟨fun _ _ h => h, links, List.forall_mem_singleton.mpr served⟩

theorem append (h : Provided schema offer tables tables₁ ns)
    (h' : Provided schema offer tables₁ tables' ns') :
    Provided schema offer tables tables' (ns ++ ns') :=
  ⟨fun a name ha => h'.kept a name (h.kept a name ha), h'.links,
    List.forall_mem_append.mpr ⟨fun n hn => (h.served n hn).mono h'.kept, h'.served⟩⟩

/-- A join is made on a column of the entity it starts from and one of its own table. -/
theorem joined {left right : Column} {itemType tableName tableAlias : String}
    {row : Expr} (links : LinksServed offer tables)
    (offered : offer.under tables left.owner left.name) (owner : right.owner = tableAlias)
    (bare : tables'.map Table.bare = tables.map Table.bare)
    (joined : (tableLinks tables').Perm (tableLinks tables ++
      [JoinTarget.link ⟨.table itemType tableName tableAlias, .column left, .column right⟩]))
    (exposed : (Source.table itemType tableName tableAlias).row schema
      .joinedSourceLeftUnresolved = .ok row) :
    Provided schema offer tables tables' [.expression row] := by
  have sources := tableSources_append bare joined
  have kept (a name : String) : offer.under tables a name → offer.under tables' a name :=
    Offer.extend_mono fun source hs => sources.mem_iff.mpr (List.mem_append_left _ hs)
  have own {a name : String} (h : (Source.table itemType tableName tableAlias).Offers a name) :
      offer.under tables' a name :=
    Offer.extend_of_mem (sources.mem_iff.mpr (List.mem_append_right _ List.mem_cons_self)) h
  refine ⟨kept, fun link hl => ?_, List.forall_mem_singleton.mpr ?_⟩
  · rcases List.mem_append.mp (joined.mem_iff.mp hl) with hl | hl
    · exact (links link hl).mono kept
    · obtain rfl := List.mem_singleton.mp hl
      exact ⟨kept _ _ offered, own owner⟩
  · exact Source.served_tableRow exposed fun name => own rfl

end Provided

/-- What the rules do to the columns that are offered. -/
def Serves (schema : Schema) : Judgement → Prop
  | .expression rows _ e tables _ e' tables' _ | .fitted rows _ e tables _ e' tables' _ =>
    ∀ offer, PlainRows rows → RowsServed schema (offer.under tables) rows →
      (Node.expression e).Ready → Linked tables → LinksServed offer tables →
      Served schema (offer.under tables) (.expression e) →
      Provided schema offer tables tables' [.expression e']
  | .slots rows slots tables _ slots' tables' _ =>
    ∀ offer, PlainRows rows → RowsServed schema (offer.under tables) rows →
      (∀ slot ∈ slots, (Node.expression slot.2).Ready) → Linked tables → LinksServed offer tables →
      (∀ slot ∈ slots, Served schema (offer.under tables) (.expression slot.2)) →
      Provided schema offer tables tables' (slots'.map fun slot => .expression slot.2)
  | .source rows source _ source' _ =>
    ∀ offer, PlainRows rows → RowsServed schema offer rows →
      (∀ s, source.statement? = some s → (Node.statement s).Ready ∧
        Served schema offer (.statement s) ∧ s.projection.isColumned = true) →
      (∀ s, source'.statement? = some s →
        Served schema offer (.statement s) ∧ s.projection.isColumned = true) ∧
        ∀ a name, source.Offers a name → source'.Offers a name
  | .tables rows tables _ tables' rows' _ =>
    ∀ offer, PlainRows rows → RowsServed schema offer rows →
      (∀ s ∈ sourceStatements tables, (Node.statement s).Ready) →
      (∀ s ∈ sourceStatements tables, s.projection.isColumned = true) →
      SourcesServed schema offer tables →
      (∀ s ∈ sourceStatements tables', s.projection.isColumned = true) ∧
        SourcesServed schema offer tables' ∧
        RowsServed schema (offer.extend (tables'.map Table.source)) rows' ∧
        ∀ a name, offer.under tables a name → offer.under tables' a name
  | .statement rows s _ s' _ =>
    ∀ offer, PlainRows rows → RowsServed schema offer rows → (Node.statement s).Ready →
      Served schema offer (.statement s) → Served schema offer (.statement s')

/-- A source that offers more can take the place of another one. -/
theorem Offer.under_cons {source source' : Source} {key : Nat} {kind : JoinKind} {joins : List Join}
    {tables tables' : List Table} (first : ∀ a name, source.Offers a name → source'.Offers a name)
    (rest : ∀ a name, (offer.extend [source']).under tables a name →
      (offer.extend [source']).under tables' a name) (a name : String)
    (h : offer.under (⟨key, source, kind, joins⟩ :: tables) a name) :
    offer.under (⟨key, source', kind, joins⟩ :: tables') a name := by
  have split (source : Source) (tables : List Table) :
      offer.under (⟨key, source, kind, joins⟩ :: tables) a name ↔
        (∃ s ∈ (joinLinks joins).filterMap Link.source?, s.Offers a name) ∨
          (offer.extend [source]).under tables a name := by
    simp only [under, extend, tableSources, tableLinks_cons, List.map_cons, List.filterMap_append,
      List.mem_append, List.mem_cons]
    grind
  rw [split] at h ⊢
  exact h.imp_right fun later => rest a name (extend_le _ (extend_first first) a name later)

variable {rows rows' : Rows} {position : Position} {tables tables₁ tables' : List Table}
  {f f₁ f' : Fresh}

theorem Serves.member {source source' found e : Expr} {name : String} {type : ValueType}
    (owner : Resolved schema native (.fitted rows .value source tables f source' tables₁ f₁))
    (mapped : source'.memberOf schema name = .ok found)
    (ihOwner : Serves schema (.fitted rows .value source tables f source' tables₁ f₁))
    (ihAgain : Serves schema (.expression rows position found tables₁ f₁ e tables' f')) :
    Serves schema (.expression rows position (.member source name type) tables f e tables' f') := by
  intro offer plain rows ready linked links served
  have sourceReady := ready.slot List.mem_cons_self
  have source := ihOwner offer plain rows sourceReady linked links (served.slot List.mem_cons_self)
  obtain ⟨⟨settled, -⟩, linked₁, -⟩ := owner.settles plain sourceReady linked
  have result := ihAgain offer plain (rows.mono source.kept)
    (Expr.ready_of_memberOf settled mapped) linked₁ source.links
    (Expr.served_of_memberOf settled.ready.here (source.served _ List.mem_cons_self) mapped)
  exact ⟨fun a name h => result.kept a name (source.kept a name h), result.links, result.served⟩

theorem Serves.navigation {entity : Entity} {member : String} {type : ValueType} {e : Expr}
    (followed : Entity.navigate (Mapping.ofSchema schema) entity member tables f =
      .ok ((e, tables'), f')) :
    Serves schema
      (.expression rows position (.navigation entity member type) tables f e tables' f') := by
  intro offer _ _ _ linked links served
  obtain ⟨-, target, exposed, step⟩ := Entity.navigate_eq_ok linked followed
  rcases step with ⟨rfl, -, mem⟩ | ⟨join, bare, joined⟩
  · have shape := links _ mem
    obtain ⟨source, leftKey, rightKey⟩ := target
    have own : source ∈ tableSources _ :=
      List.mem_append_right _ (List.mem_filterMap.mpr ⟨_, mem, rfl⟩)
    cases source with
    | table itemType tableName tableAlias =>
      exact .unchanged links
        (Source.served_tableRow exposed fun name => Offer.extend_of_mem own rfl)
    | _ => exact shape.elim
  · obtain ⟨itemType, tableName, left, right, -, hr, rfl, -⟩ := Mapping.join_eq_ok join
    obtain ⟨mapping, foreignKey, left', typed, mapped, same⟩ := Mapping.leftKey_of_join join
    obtain rfl := Expr.column.inj same
    have mem := (served.here.whole _ rfl).column_mem typed mapped
    refine .joined links ?_ hr bare joined exposed
    exact served.here.offered (_, _) (List.mem_flatMap.mpr ⟨_, mem, by simp⟩)

theorem Serves.binary {op : BinaryOp} {type : ValueType}
    {left right left₁ right₁ left₂ right₂ left₃ right₃ : Expr}
    (first : Resolved schema native (.fitted rows .value left tables f left₁ tables₁ f₁))
    (second : Resolved schema native (.fitted rows .value right tables₁ f₁ right₁ tables' f'))
    (compared : identities op left₁ right₁ = .ok (left₂, right₂))
    (leftFits : Expr.adapted native .singleValue left₂ = .ok left₃)
    (rightFits : Expr.adapted native .singleValue right₂ = .ok right₃)
    (ihFirst : Serves schema (.fitted rows .value left tables f left₁ tables₁ f₁))
    (ihSecond : Serves schema (.fitted rows .value right tables₁ f₁ right₁ tables' f')) :
    Serves schema (.expression rows position (.binary op left right type) tables f
      (.binary op left₃ right₃ type) tables' f') := by
  intro offer plain rows ready linked links served
  have leftReady := ready.slot List.mem_cons_self
  have rightReady := ready.slot (List.mem_cons_of_mem _ List.mem_cons_self)
  have left := ihFirst offer plain rows leftReady linked links (served.slot List.mem_cons_self)
  obtain ⟨⟨leftSettled, -⟩, linked₁, -⟩ := first.settles plain leftReady linked
  have right := ihSecond offer plain (rows.mono left.kept) rightReady linked₁ left.links
    ((served.slot (List.mem_cons_of_mem _ List.mem_cons_self)).mono left.kept)
  obtain ⟨⟨rightSettled, -⟩, -, -⟩ := second.settles plain rightReady linked₁
  obtain ⟨kept, links', both⟩ := left.append right
  obtain ⟨hl, hr⟩ := Expr.served_of_identities leftSettled.ready.here rightSettled.ready.here
    (both _ List.mem_cons_self) (both _ (List.mem_cons_of_mem _ List.mem_cons_self)) compared
  refine ⟨kept, links', List.forall_mem_singleton.mpr ?_⟩
  exact .binary (Expr.served_of_adapted hl leftFits) (Expr.served_of_adapted hr rightFits)

theorem Serves.table {key : Nat} {source source' : Source} {kind : JoinKind} {joins : List Join}
    {row : Expr} (first : Resolved schema native (.source rows source f source' f₁))
    (exposed : source'.row schema .sourceLeftUnresolved = .ok row)
    (ihFirst : Serves schema (.source rows source f source' f₁))
    (ihRest : Serves schema (.tables ((key, row) :: rows) tables f₁ tables' rows' f')) :
    Serves schema (.tables rows (⟨key, source, kind, joins⟩ :: tables) f
      (⟨key, source', kind, joins⟩ :: tables') rows' f') := by
  intro offer plain rows ready columned sources
  obtain ⟨firstServed, restServed⟩ := sourcesServed_cons.mp sources
  have firstReady := fun s hs => ready s (mem_sourceStatements_cons.mpr (.inl hs))
  obtain ⟨nested, kept⟩ := ihFirst offer plain rows fun s hs =>
    ⟨firstReady s hs, firstServed s hs, columned s (mem_sourceStatements_cons.mpr (.inl hs))⟩
  obtain ⟨tableAlias, -, row⟩ := Source.row_eq_ok exposed
  have served : Served schema (offer.extend [_]) (.expression _) :=
    Source.served_row exposed (first.settles plain firstReady) (fun s hs => (nested s hs).1)
      fun a name => Offer.extend_of_mem List.mem_cons_self
  obtain ⟨columned', others, rows', keptOthers⟩ := ihRest (offer.extend [_])
    (List.forall_mem_cons.mpr ⟨⟨tableAlias, row⟩, plain⟩)
    (List.forall_mem_cons.mpr ⟨served, rows.mono fun _ _ => .inr⟩)
    (fun s hs => ready s (mem_sourceStatements_cons.mpr (.inr hs)))
    (fun s hs => columned s (mem_sourceStatements_cons.mpr (.inr hs)))
    (restServed.mono (Offer.extend_first kept))
  refine ⟨fun s hs => ?_, sourcesServed_cons.mpr ⟨fun s hs => (nested s hs).1, others⟩, ?_,
    Offer.under_cons kept keptOthers⟩
  · rcases mem_sourceStatements_cons.mp hs with hs | hs
    · exact (nested s hs).2
    · exact columned' s hs
  · rw [List.map_cons, Offer.extend_cons]
    exact rows'

theorem Serves.statement {s s' : Statement} {root : Expr} {tables₂ : List Table} {f₂ : Fresh}
    (sources : Resolved schema native (.tables rows s.tables f tables₁ rows' f₁))
    (joins : resolveTableJoins (Mapping.ofSchema schema) tables₁ f₁ = .ok (tables₂, f₂))
    (slots : Resolved schema native
      (.slots rows' s.slots tables₂ f₂ ((.value, root) :: s'.clauses) s'.tables f'))
    (projection : s'.projection = s.projection.renamed root)
    (ihSources : Serves schema (.tables rows s.tables f tables₁ rows' f₁))
    (ihSlots : Serves schema
      (.slots rows' s.slots tables₂ f₂ ((.value, root) :: s'.clauses) s'.tables f')) :
    Serves schema (.statement rows s f s' f') := by
  intro offer plain rows ready served
  have nestedReady := fun s hs =>
    ready.child (List.mem_append_right _ (List.mem_map_of_mem (a := s) hs))
  cases served with
  | statement linksServed columned slotsServed sourcesServed =>
    obtain ⟨columned', sources', rows₁, kept₁⟩ :=
      ihSources offer plain rows nestedReady columned sourcesServed
    obtain ⟨-, -, -, links⟩ := sources.settles plain nestedReady
    obtain ⟨⟨rfl, rfl⟩, plain₁, linked₁, slotsReady⟩ := sources.slots_ready joins plain ready
    have result := ihSlots offer plain₁
      (rows₁.mono fun a name => Offer.extend_mono (List.subset_append_left _ _)) slotsReady linked₁
      (fun link hl => (linksServed link (links ▸ hl)).mono kept₁)
      fun slot hs => (slotsServed slot hs).mono kept₁
    obtain ⟨fitted, -, bare⟩ := slots.settles plain₁ slotsReady linked₁
    have hs := Statement.slots_eq projection (fitted _ List.mem_cons_self).1
    refine .statement result.links (sourceStatements_eq_of_bare bare ▸ columned')
      (fun slot mem => result.served _ (List.mem_map_of_mem (hs ▸ mem))) (sources'.of_bare bare)

theorem Resolved.serves {j : Judgement} (h : Resolved schema native j) : Serves schema j := by
  induction h with
  | leaf leaf => exact fun offer _ _ _ _ links served => .unchanged links served
  | constant mapped =>
    intro offer _ _ _ _ links _
    rcases Schema.constant_eq_ok mapped with ⟨_, _, _, -, rfl⟩ | ⟨-, rfl⟩
    · exact .unchanged links (.silent (by simp) rfl rfl rfl (by simp [Expr.slots]))
    · exact .unchanged links (.constant _ _)
  | tableReference found =>
    intro offer _ rows _ _ links _
    obtain ⟨before, after, rfl, -⟩ := List.lookup_eq_some_iff.mp found
    exact .unchanged links (rows _ (List.mem_append_right _ List.mem_cons_self))
  | member owner mapped again ihOwner ihAgain => exact .member owner mapped ihOwner ihAgain
  | navigation followed => exact .navigation followed
  | binary first second compared leftFits rightFits ihFirst ihSecond =>
    exact .binary first second compared leftFits rightFits ihFirst ihSecond
  | composite composite kind type isPredicate wording labels slots ih =>
    intro offer plain rows ready linked links served
    have result := ih offer plain rows (fun _ hs => ready.slot hs) linked links
      fun _ hs => served.slot hs
    refine ⟨result.kept, result.links, List.forall_mem_singleton.mpr ?_⟩
    exact .composite composite kind wording served.here.worded fun slot hs =>
      result.served _ (List.mem_map_of_mem hs)
  | named inner ih =>
    intro offer _ _ ready
    exact absurd rfl ready.here.1
  | subStatement inner ih =>
    intro offer plain rows ready _ links served
    have nested := ih _ plain rows (ready.child List.mem_cons_self) (served.child List.mem_cons_self)
    refine .unchanged links (.expression ⟨Expr.worded_of_wording_eq_none rfl, ?_, ?_⟩ ?_)
    · rintro _ ⟨⟩
    · rintro _ ⟨⟩
    · exact List.forall_mem_singleton.mpr nested
  | fitted resolved fits ih =>
    intro offer plain rows ready linked links served
    have result := ih offer plain rows ready linked links served
    refine ⟨result.kept, result.links, List.forall_mem_singleton.mpr ?_⟩
    exact Expr.served_of_adapted (result.served _ List.mem_cons_self) fits
  | noSlot =>
    intro offer _ _ _ _ links _
    exact ⟨fun _ _ h => h, links, List.forall_mem_nil _⟩
  | slot first rest ihFirst ihRest =>
    intro offer plain rows ready linked links served
    obtain ⟨firstReady, restReady⟩ := List.forall_mem_cons.mp ready
    obtain ⟨firstServed, restServed⟩ := List.forall_mem_cons.mp served
    have result := ihFirst offer plain rows firstReady linked links firstServed
    obtain ⟨-, linked₁, -⟩ := first.settles plain firstReady linked
    exact result.append (ihRest offer plain (rows.mono result.kept) restReady linked₁ result.links
      fun slot hs => (restServed slot hs).mono result.kept)
  | unresolvedSource mapped =>
    intro offer _ _ _
    obtain ⟨mapping, -, rfl, -⟩ := Mapping.source_eq_ok mapped
    exact ⟨by rintro _ ⟨⟩, by rintro _ _ ⟨⟩⟩
  | tableSource => exact fun offer _ _ _ => ⟨by rintro _ ⟨⟩, fun _ _ h => h⟩
  | statementSource inner ih =>
    intro offer plain rows h
    obtain ⟨ready, served, columned⟩ := h _ rfl
    have keeps := inner.keeps plain ready
    refine ⟨fun s hs => ?_, fun a name offers => ⟨offers.1, keeps.alone offers.2⟩⟩
    obtain rfl := Option.some.inj hs
    exact ⟨ih offer plain rows ready served, keeps.columned columned⟩
  | noTable =>
    intro offer _ rows _ columned sources
    exact ⟨columned, sources, rows.mono fun _ _ => .inr, fun _ _ h => h⟩
  | table first exposed rest ihFirst ihRest => exact .table first exposed ihFirst ihRest
  | statement sources joins slots projection shape isDistinct condition ihSources ihSlots =>
    exact .statement sources joins slots projection ihSources ihSlots

/-- All columns of a resolved statement are offered where they stand. -/
theorem Statement.served_of_resolve {s s' : Statement} {f f' : Fresh}
    (ready : (Node.statement s).Ready) (served : Served schema (fun _ _ => False) (.statement s))
    (h : s.resolve (Mapping.ofSchema schema) native f = .ok (s', f')) :
    Served schema (fun _ _ => False) (.statement s') :=
  (Statement.resolved_of_resolve h).serves _ (by simp [PlainRows]) (by simp [RowsServed]) ready served

end Comprehension.Sql
