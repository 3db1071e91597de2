import Comprehension.Proofs.TableReferences

/-!
What a mapping finds refers to no table. The members of an entity, the rows of a source and the
target of a join are columns and entities under an alias, so none of them needs the rows of a table
to be resolved, and looking them up fails for other reasons.
-/
namespace Comprehension

namespace Sql

/-- If an error says that a table is not there, it is one of some tables. -/
def Misses (free : Nat → Prop) (error : Error) : Prop :=
  ∀ key, error = .contract (.tableNotInScope key) → free key

/-- Nodes that refer to no table. -/
def Node.Closed (n : Node) : Prop := n.ClosedIn fun _ => False

theorem Node.Closed.closedIn {n : Node} (h : n.Closed) {visible : Nat → Prop} :
    n.ClosedIn visible :=
  h.mono fun _ => False.elim

section Parts

open Outcome (Ends)

variable {schema : Schema} {free visible : Nat → Prop}

theorem Expr.closed_of_operands_eq_nil {e : Expr} (kind : e.kind.hasOperands = true)
    (none : e.operands = []) : (Node.expression e).Closed :=
  closedIn_of_operands kind (by simp [none])

theorem Expr.closed_column (c : Column) : (Node.expression (.column c)).Closed :=
  closed_of_operands_eq_nil rfl rfl

theorem Expr.PartOf.closed {tableAlias : String} {e : Expr} (h : e.PartOf tableAlias) :
    (Node.expression e).Closed := by
  cases h with
  | column => exact closed_column _
  | entity => exact closed_of_operands_eq_nil rfl rfl
  | reference => exact closed_of_operands_eq_nil rfl rfl

theorem Expr.RowOf.closed {tableAlias : String} {e : Expr} (h : e.RowOf tableAlias) :
    (Node.expression e).Closed := by
  rcases h with h | ⟨members, rfl, h⟩
  · exact h.closed
  · exact closedIn_compound fun n mem => (h n mem).closed

theorem typeMapping_ends (itemType : String) :
    Ends (Misses free) (fun _ => True) (schema.typeMapping itemType) := by
  unfold Schema.typeMapping
  split
  · exact .ok trivial
  · exact .error nofun

theorem column_ends (mapping : TypeMapping) (itemType member tableAlias : String) :
    Ends (Misses free) (fun _ => True) (mapping.column itemType member tableAlias) := by
  unfold TypeMapping.column
  split
  · exact .ok trivial
  · exact .error nofun

theorem constant_ends (value : Value) (type : ValueType) :
    Ends (Misses free) (fun e => (Node.expression e).Closed) (schema.constant value type) := by
  cases value with
  | entity typeName id =>
    refine (typeMapping_ends typeName).bind fun mapping _ => ?_
    split
    · refine .ok (Expr.closedIn_of_operands rfl ?_)
      simp [Expr.operands, Expr.closedIn_constant]
    · exact .error nofun
  | _ => exact .ok (Expr.closedIn_constant _ _)

theorem member_ends (e : Entity) (name : String) :
    Ends (Misses free) (fun found => (Node.expression found).Closed) (schema.member e name) := by
  refine (typeMapping_ends e.itemType).bind fun mapping _ => ?_
  split
  · exact .ok (Expr.closed_of_operands_eq_nil rfl rfl)
  · exact (column_ends mapping e.itemType name e.tableAlias).bind fun c _ =>
      .ok (Expr.closed_column c)

/-- A member of an expression is a part of it or refers to no table. -/
theorem Expr.memberOf_ends (member : String) (e : Expr)
    (h : (Node.expression e).ClosedIn visible) :
    Ends (Misses free) (fun found => (Node.expression found).ClosedIn visible)
      (e.memberOf schema member) := by
  cases e with
  | entity entity => exact (member_ends entity member).mono fun _ h => h.closedIn
  | column c => exact .error nofun
  | entityReference tableAlias name entity =>
    refine (member_ends entity member).bind fun found _ => ?_
    split
    · exact .ok (closed_column _).closedIn
    · exact .error nofun
  | compound members =>
    unfold memberOf
    split
    · rename_i n found
      refine .ok (h.operand ?_)
      simp only [operands, slots, List.map_map]
      exact List.mem_map_of_mem (List.mem_of_find?_eq_some found)
    · exact .error nofun
  | named n =>
    obtain ⟨name, inner⟩ := n
    exact inner.memberOf_ends member (h.operand List.mem_cons_self)
  | _ => exact .error nofun
termination_by structural e

theorem Expr.identity_ends (e : Expr) (h : (Node.expression e).ClosedIn visible) :
    Ends (Misses free) (fun found => (Node.expression found).ClosedIn visible) e.identity := by
  have null {e : Expr} (h : (Node.expression e).ClosedIn visible) :
      Ends (Misses free) (fun found => (Node.expression found).ClosedIn visible)
        (if e.isNullConstant then .ok e
          else .error (.unsupportedExpression e.kind .comparedWithEntity)) := by
    split
    · exact .ok h
    · exact .error nofun
  cases e with
  | entity entity => exact .ok (closed_column _).closedIn
  | entityReference tableAlias name entity => exact .ok (closed_column _).closedIn
  | entityConstant type value key => exact .ok (h.operand List.mem_cons_self)
  | named n =>
    obtain ⟨name, inner⟩ := n
    exact inner.identity_ends (h.operand List.mem_cons_self)
  | _ => exact null h
termination_by structural e

theorem identities_ends {op : BinaryOp} {left right : Expr}
    (hl : (Node.expression left).ClosedIn visible) (hr : (Node.expression right).ClosedIn visible) :
    Ends (Misses free) (fun found => (Node.expression found.1).ClosedIn visible ∧
      (Node.expression found.2).ClosedIn visible) (identities op left right) := by
  unfold identities
  split
  · exact (left.identity_ends hl).bind fun _ hl => (right.identity_ends hr).bind fun _ hr =>
      .ok ⟨hl, hr⟩
  · exact .ok ⟨hl, hr⟩

theorem Expr.adapted_ends {native : Bool} {position : Position} {e : Expr}
    (h : (Node.expression e).ClosedIn visible) :
    Ends (Misses free) (fun found => (Node.expression found).ClosedIn visible)
      (e.adapted native position) := by
  cases adapted : e.adapted native position with
  | error error =>
    unfold Expr.adapted at adapted
    split at adapted
    · cases adapted
      exact .error nofun
    · split at adapted <;> cases adapted
  | ok e' =>
    refine .ok ?_
    rcases adapted_cases adapted with rfl | ⟨-, rfl⟩ | ⟨-, -, rfl⟩ | ⟨value, -, rfl⟩
    · exact h
    · exact closedIn_of_operands rfl (by simp [asValue, operands, slots, h, closedIn_int])
    · exact closedIn_binary h (closedIn_int 1)
    · exact closedIn_binary (closedIn_int 1) (closedIn_int 1)

theorem entity_ends (itemType tableAlias : String) :
    Ends (Misses free) (fun _ => True) (schema.entity itemType tableAlias) :=
  (typeMapping_ends itemType).bind fun mapping _ =>
    (column_ends mapping itemType mapping.primaryKey tableAlias).bind fun _ _ => .ok trivial

/-- The rows of a source refer to no table. -/
theorem Source.row_ends (source : Source) (unresolved : String → Violation)
    (other : ∀ type key, unresolved type ≠ .tableNotInScope key) :
    Ends (Misses free) (fun row => (Node.expression row).Closed)
      (source.row schema unresolved) := by
  cases source with
  | unresolved itemType =>
    refine .error fun key same => ?_
    exact absurd (Error.contract.inj same) (other itemType key)
  | table itemType tableName tableAlias =>
    exact (entity_ends itemType tableAlias).bind fun e _ =>
      .ok (Expr.closed_of_operands_eq_nil rfl rfl)
  | statement tableAlias s => exact .ok s.projection.rowOf_exposed.closed

end Parts

end Sql

/-- Whether the statements and the keys of joins that a mapping itself brings along refer to no
table outside them. -/
structure Mapping.Contained (mapping : Mapping) : Prop where
  sources : ∀ entry ∈ mapping.sources, ∀ s, entry.2.statement? = some s →
    (Sql.Node.statement s).Closed
  joins : ∀ entry ∈ mapping.joins, ∀ n ∈ Sql.Node.ofLink entry.2.link, n.Closed

namespace Sql

section Mappings

variable {mapping : Mapping} {free visible : Nat → Prop}

theorem freshAlias_ends (stem : String) :
    Supply.Ends (Misses free) (fun _ => True) (Supply.freshAlias stem) :=
  fun _ => .ok trivial

theorem mem_of_lookup {α : Type} {entries : List (String × α)} {name : String} {a : α}
    (h : entries.lookup name = some a) : (name, a) ∈ entries := by
  obtain ⟨before, after, rfl, -⟩ := List.lookup_eq_some_iff.mp h
  exact List.mem_append_right _ List.mem_cons_self

theorem source_ends (contained : mapping.Contained) (itemType : String) :
    Supply.Ends (Misses free)
      (fun source => ∀ s, source.statement? = some s → (Node.statement s).Closed)
      (mapping.source itemType) := by
  unfold Mapping.source
  split
  · rename_i source found
    exact .pure (contained.sources _ (mem_of_lookup found))
  · refine (Supply.Ends.lift (typeMapping_ends itemType)).bind fun type _ => ?_
    exact (freshAlias_ends "t").bind fun tableAlias _ => .pure nofun

theorem path_ends {schema : Schema} (e : Entity) (member : String) :
    Outcome.Ends (Misses free) (fun _ => True) (schema.path e member) := by
  refine (typeMapping_ends e.itemType).bind fun origin _ => ?_
  split
  · exact .error nofun
  · rename_i relation _
    exact (typeMapping_ends relation.target).bind fun target _ => .ok trivial

theorem join_ends (contained : mapping.Contained) (e : Entity) (member : String) :
    Supply.Ends (Misses free) (fun target => ∀ n ∈ Node.ofLink target.link, n.Closed)
      (mapping.join e member) := by
  unfold Mapping.join
  split
  · rename_i target found
    exact .pure (contained.joins _ (mem_of_lookup found))
  · refine (Supply.Ends.lift (path_ends e member)).bind fun path _ => ?_
    refine (freshAlias_ends "t").bind fun tableAlias _ => .lift ?_
    refine (column_ends path.origin _ _ _).bind fun left _ => ?_
    refine (column_ends path.target _ _ _).bind fun right _ => .ok ?_
    simp [JoinTarget.link, Node.ofLink, Source.statement?, Expr.closed_column]

/-- All nodes right below a link are closed. -/
def Link.ClosedIn (visible : Nat → Prop) (link : Link) : Prop :=
  ∀ n ∈ Node.ofLink link, n.ClosedIn visible

theorem Link.resolve_ends (contained : mapping.Contained) {link : Link}
    (h : link.ClosedIn visible) :
    Supply.Ends (Misses free) (fun target => target.link.ClosedIn visible)
      (link.resolve mapping) := by
  cases link with
  | unresolved origin member =>
    exact (join_ends contained origin member).mono fun target closed n mem =>
      (closed n mem).closedIn
  | resolved source left right => exact .pure h

mutual

theorem Join.resolve_ends (contained : mapping.Contained) (join : Join)
    (h : ∀ link ∈ join.links, link.ClosedIn visible) :
    Supply.Ends (Misses free) (fun join' => ∀ link ∈ join'.links, link.ClosedIn visible)
      (join.resolve mapping) := by
  obtain ⟨member, kind, link, joins⟩ := join
  rw [Join.links, List.forall_mem_cons] at h
  simp only [Join.resolve]
  refine (Link.resolve_ends contained h.1).bind fun target first => ?_
  refine (resolveJoins_ends contained joins h.2).bind fun joins' others => .pure ?_
  rw [Join.links]
  exact List.forall_mem_cons.mpr ⟨first, others⟩

theorem resolveJoins_ends (contained : mapping.Contained) (joins : List Join)
    (h : ∀ link ∈ joinLinks joins, link.ClosedIn visible) :
    Supply.Ends (Misses free) (fun joins' => ∀ link ∈ joinLinks joins', link.ClosedIn visible)
      (resolveJoins mapping joins) := by
  cases joins with
  | nil => exact .pure nofun
  | cons join rest =>
    rw [joinLinks, List.forall_mem_append] at h
    simp only [resolveJoins]
    refine (join.resolve_ends contained h.1).bind fun join' first => ?_
    refine (resolveJoins_ends contained rest h.2).bind fun rest' others => .pure ?_
    rw [joinLinks]
    exact List.forall_mem_append.mpr ⟨first, others⟩

end

/-- The tables are the same but for their joins, which are closed. -/
structure Kept (visible : Nat → Prop) (before tables : List Table) : Prop where
  bare : tables.map Table.bare = before.map Table.bare
  links : LinksClosedIn visible tables

theorem resolveTableJoins_ends (contained : mapping.Contained) {tables : List Table}
    (h : LinksClosedIn visible tables) :
    Supply.Ends (Misses free) (Kept visible tables) (resolveTableJoins mapping tables) := by
  induction tables with
  | nil => exact .pure ⟨rfl, h⟩
  | cons table rest ih =>
    rw [LinksClosedIn, tableLinks_cons, List.forall_mem_append] at h
    simp only [resolveTableJoins]
    refine (resolveJoins_ends contained table.joins h.1).bind fun joins first => ?_
    refine (ih h.2).bind fun rest' others => .pure ⟨?_, ?_⟩
    · rw [List.map_cons, List.map_cons, others.bare]
      rfl
    · rw [LinksClosedIn, tableLinks_cons]
      exact List.forall_mem_append.mpr ⟨first, others.links⟩

theorem Join.closedIn_put {join : Join} {joins : List Join}
    (hj : ∀ link ∈ join.links, link.ClosedIn visible)
    (h : ∀ link ∈ joinLinks joins, link.ClosedIn visible) :
    ∀ link ∈ joinLinks (put join joins), link.ClosedIn visible := by
  induction joins with
  | nil => simpa [put, joinLinks] using hj
  | cons first rest ih =>
    rw [joinLinks, List.forall_mem_append] at h
    unfold put
    split
    · rw [joinLinks]
      exact List.forall_mem_append.mpr ⟨hj, h.2⟩
    · rw [joinLinks]
      exact List.forall_mem_append.mpr ⟨h.1, ih h.2⟩

theorem Join.closedIn_of_mem {join : Join} {joins : List Join} (mem : join ∈ joins)
    (h : ∀ link ∈ joinLinks joins, link.ClosedIn visible) :
    ∀ link ∈ join.links, link.ClosedIn visible := by
  induction joins with
  | nil => cases mem
  | cons first rest ih =>
    rw [joinLinks, List.forall_mem_append] at h
    rcases List.mem_cons.mp mem with rfl | mem
    · exact h.1
    · exact ih mem h.2

/-- The join that is followed, and the joins beside it, are closed, also where it is new. -/
theorem Join.closedIn_getOrAdd (member : String) (kind : JoinKind) (e : Entity) {joins : List Join}
    (h : ∀ link ∈ joinLinks joins, link.ClosedIn visible) :
    (∀ link ∈ (getOrAdd member kind (.unresolved e member) joins).1.links, link.ClosedIn visible) ∧
      ∀ link ∈ joinLinks (getOrAdd member kind (.unresolved e member) joins).2,
        link.ClosedIn visible := by
  unfold getOrAdd
  cases found : find? member joins with
  | some join => exact ⟨closedIn_of_mem (mem_of_find? found).1 h, h⟩
  | none =>
    have added : ∀ link ∈ [Link.unresolved e member], link.ClosedIn visible := by
      intro link mem
      obtain rfl := List.mem_singleton.mp mem
      exact nofun
    refine ⟨added, ?_⟩
    dsimp only
    rw [joinLinks_append]
    exact List.forall_mem_append.mpr ⟨h, by simpa [joinLinks, Join.links] using added⟩

/-- Following a member adds a closed join at most, and finds rows that refer to no table. -/
theorem Entity.navigate_ends (contained : mapping.Contained) (e : Entity) (member : String)
    (before : List Table) :
    Joining.Ends (Misses free) (Kept visible before) (fun row => (Node.expression row).Closed)
      (e.navigate mapping member) := by
  intro tables kept
  rw [navigate_apply]
  split
  · exact .throw nofun
  · rename_i joins rebuild found
    obtain ⟨⟨self, others, links⟩, bare, -⟩ := Table.place_of_focusIn found
    have all : ∀ link ∈ others ++ joinLinks joins, link.ClosedIn visible := by
      intro link mem
      refine kept.links link ?_
      rw [← self]
      exact (links joins).mem_iff.mpr mem
    rw [List.forall_mem_append] at all
    have joined := Join.closedIn_getOrAdd member .left e all.2
    generalize Join.getOrAdd member .left (.unresolved e member) joins = place at joined ⊢
    obtain ⟨⟨name, kind, link, below⟩, beside⟩ := place
    rw [Join.links, List.forall_mem_cons] at joined
    refine (Link.resolve_ends contained joined.1.1).bind fun target linked => ?_
    refine (Supply.Ends.lift (target.source.row_ends .joinedSourceLeftUnresolved
      fun _ _ => nofun)).bind fun row closed => ?_
    refine .pure ⟨closed, (bare _).trans kept.bare, fun link mem => ?_⟩
    rcases List.mem_append.mp ((links _).mem_iff.mp mem) with mem | mem
    · exact all.1 link mem
    · refine Join.closedIn_put ?_ joined.2 link mem
      rw [Join.links]
      exact List.forall_mem_cons.mpr ⟨linked, joined.1.2⟩

end Mappings

end Sql

end Comprehension
