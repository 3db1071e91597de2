import Comprehension.Proofs.Offers

/-!
Everything that a statement is made of, at any depth: names and keys, what a call is applied to and
the two keys of a join as well as the slots. In a statement that resolution has settled, nothing is
left at any depth that a mapping has to replace.
-/
namespace Comprehension.Sql

namespace Kind

/-- Kinds of nodes that stand for something a mapping has not replaced yet. -/
def isUnresolved : Kind → Bool
  | tableReference | member | navigation | methodCall | unresolvedSource | unresolvedJoin => true
  | _ => false

end Kind

/-- All expressions right below an expression. -/
def Expr.operands : Expr → List Expr
  | .entityConstant _ _ key => [key]
  | .named n => [n.expression]
  | .call c => c.object.toList ++ c.arguments
  | e => e.slots.map Prod.snd

theorem Expr.branch_mem_operands {branches : List (Expr × Expr)} {branch : Expr × Expr}
    (h : branch ∈ branches) (otherwise : Option Expr) (type : ValueType) :
    branch.1 ∈ (Expr.case branches otherwise type).operands ∧
      branch.2 ∈ (Expr.case branches otherwise type).operands := by
  have both : [branch.1, branch.2] ⊆ (Expr.case branches otherwise type).operands := by
    intro operand here
    simp only [operands, slots, List.map_append, List.map_flatMap]
    exact List.mem_append_left _ (List.mem_flatMap.mpr ⟨branch, h, by simpa using here⟩)
  exact ⟨both (by simp), both (by simp)⟩

theorem Expr.ordering_mem_operands {orderings : List Ordering} {ordering : Ordering}
    (h : ordering ∈ orderings) : ordering.expression ∈ (Expr.rowNumber orderings).operands := by
  simp only [operands, slots, List.map_map]
  exact List.mem_map_of_mem h

theorem Expr.member_mem_operands {members : List Named} {n : Named} (h : n ∈ members) :
    n.expression ∈ (Expr.compound members).operands := by
  simp only [operands, slots, List.map_map]
  exact List.mem_map_of_mem h

/-- The operands that have to be conditions. -/
def Expr.criteria : Expr → List Expr
  | .logical _ left right => [left, right]
  | .not operand => [operand]
  | .case branches _ _ => branches.map Prod.fst
  | _ => []

def Source.kinds : Source → List Kind
  | .unresolved _ => [.unresolvedSource]
  | _ => []

def Link.kinds : Link → List Kind
  | .unresolved .. => [.unresolvedJoin]
  | .resolved source _ _ => source.kinds

/-- What is offered right below a node. -/
def Offer.below (offer : Offer) : Node → Offer
  | .expression _ => offer
  | .statement s => offer.under s.tables

theorem Served.ofChild {schema : Schema} {offer : Offer} {n m : Node} (h : Served schema offer n)
    (hm : m ∈ n.children) : Served schema (offer.below n) m := by
  cases h with
  | expression here below => exact below m hm
  | statement links columned slots sources =>
    rcases List.mem_append.mp hm with hm | hm
    · obtain ⟨slot, hs, rfl⟩ := List.mem_map.mp hm
      exact slots slot hs
    · obtain ⟨inner, hi, rfl⟩ := List.mem_map.mp hm
      obtain ⟨table, ht, nested⟩ := List.mem_filterMap.mp hi
      obtain ⟨before, after, split⟩ := List.append_of_mem ht
      refine (sources before table after inner split nested).mono fun a name => ?_
      refine Offer.extend_mono (List.Subset.trans ?_ (List.subset_append_left _ _))
      rw [split, List.map_append]
      exact List.subset_append_left _ _

namespace Node

/-- All nodes right below a link. -/
def ofLink : Link → List Node
  | .unresolved .. => []
  | .resolved source left right =>
    source.statement?.toList.map .statement ++ [.expression left, .expression right]

/-- All nodes right below a node. -/
def parts : Node → List Node
  | .expression (.subStatement s) => [.statement s]
  | .expression e => e.operands.map .expression
  | .statement s =>
    .expression s.projection :: s.clauses.map (fun slot => .expression slot.2) ++
      (sourceStatements s.tables).map .statement ++ (tableLinks s.tables).flatMap ofLink

/-- The kinds of a node itself and of the sources and joins that are written in it. -/
def kinds : Node → List Kind
  | .expression e => [e.kind]
  | .statement s =>
    s.tables.flatMap (fun table => table.source.kinds) ++ (tableLinks s.tables).flatMap Link.kinds

/-- The node is the root or stands below it, at any depth. -/
inductive Inside (root : Node) : Node → Prop where
  | root : Inside root root
  | part {n m : Node} (inside : Inside root n) (part : m ∈ n.parts) : Inside root m

variable {root : Node}

theorem Inside.operand {e operand : Expr} (h : Inside root (.expression e))
    (ho : operand ∈ e.operands) : Inside root (.expression operand) := by
  refine h.part ?_
  cases e with
  | subStatement s => cases ho
  | _ => exact List.mem_map_of_mem ho

theorem Inside.projection {s : Statement} (h : Inside root (.statement s)) :
    Inside root (.expression s.projection) :=
  h.part (by simp [parts])

theorem Inside.clause {s : Statement} (h : Inside root (.statement s)) {slot : Position × Expr}
    (hs : slot ∈ s.clauses) : Inside root (.expression slot.2) := by
  refine h.part ?_
  have mem : Node.expression slot.2 ∈ s.clauses.map fun slot => Node.expression slot.2 :=
    List.mem_map_of_mem hs
  simp [parts, mem]

theorem Inside.source {s inner : Statement} (h : Inside root (.statement s)) {table : Table}
    (ht : table ∈ s.tables) (hi : table.source.statement? = some inner) :
    Inside root (.statement inner) := by
  refine h.part ?_
  have mem : inner ∈ sourceStatements s.tables := List.mem_filterMap.mpr ⟨table, ht, hi⟩
  simp [parts, mem]

theorem Inside.link {s : Statement} (h : Inside root (.statement s)) {link : Link}
    (hl : link ∈ tableLinks s.tables) {n : Node} (hn : n ∈ ofLink link) : Inside root n := by
  refine h.part (List.mem_append_right _ ?_)
  exact List.mem_flatMap.mpr ⟨link, hl, hn⟩

/-- A node, or a projection without its name. -/
def unnamed : Node → Node
  | .expression e => .expression e.unnamed
  | .statement s => .statement s

theorem unnamed_of_kind {e : Expr} (h : e.kind ≠ .named) :
    (Node.expression e).unnamed = .expression e := by
  cases e with
  | named n => exact absurd rfl h
  | _ => rfl

variable {schema : Schema} {native : Bool} {offer : Offer}

/-- What is known of each node of a resolved statement: but for its name it is settled, and its
columns are offered. -/
structure Mapped (schema : Schema) (native : Bool) (offer : Offer) (n : Node) : Prop where
  settled : n.unnamed.Settled schema native
  served : Served schema offer n.unnamed

theorem Mapped.ofSettled {e : Expr} (settled : (Node.expression e).Settled schema native)
    (served : Served schema offer (.expression e)) :
    (Node.expression e).Mapped schema native offer := by
  have same := unnamed_of_kind settled.ready.here.1
  exact ⟨by rwa [same], by rwa [same]⟩

/-- The keys of a join are columns, and what is joined is a table. -/
theorem key_of_mem_ofLink {link : Link} (h : link.IsServed offer) {n : Node}
    (hn : n ∈ ofLink link) :
    ∃ c, offer c.owner c.name ∧ n = .expression (.column c) := by
  unfold Link.IsServed at h
  split at h
  · rename_i left right
    rw [ofLink, List.mem_append] at hn
    rcases hn with hn | hn
    · cases hn
    · simp only [List.mem_cons, List.not_mem_nil, or_false] at hn
      rcases hn with rfl | rfl
      · exact ⟨left, h.1, rfl⟩
      · exact ⟨right, h.2, rfl⟩
  · exact h.elim

theorem unnamed_of_ready {n : Node} (h : n.Ready) : n.unnamed = n := by
  cases n with
  | expression e => exact unnamed_of_kind h.here.1
  | statement s => rfl

/-- What stands right below a node of a resolved statement: what has a name, the projection of a
statement, a slot or a statement, the key of an entity constant, or a column that a join is made
on. -/
theorem Mapped.part_cases {n m : Node} (h : n.Mapped schema native offer) (hm : m ∈ n.parts) :
    (∃ x, n = .expression (.named x) ∧ m = .expression x.expression) ∨
      (∃ s, n = .statement s ∧ m = .expression s.projection) ∨ m ∈ n.unnamed.children ∨
      (∃ value type, m = .expression (.constant value type)) ∨
      ∃ c, offer.below n c.owner c.name ∧ m = .expression (.column c) := by
  obtain ⟨settled, served⟩ := h
  cases n with
  | expression e =>
    cases e with
    | subStatement s =>
      obtain rfl := List.mem_singleton.mp hm
      exact .inr (.inr (.inl List.mem_cons_self))
    | named x => exact .inl ⟨x, rfl, List.mem_singleton.mp hm⟩
    | entityConstant type value key =>
      obtain rfl := List.mem_singleton.mp hm
      have keyed := settled.here.2.1
      cases key with
      | constant id keyType => exact .inr (.inr (.inr (.inl ⟨id, keyType, rfl⟩)))
      | _ => cases keyed
    | call c => cases settled.here.1
    | _ =>
      obtain ⟨operand, ho, rfl⟩ := List.mem_map.mp hm
      obtain ⟨slot, hs, rfl⟩ := List.mem_map.mp ho
      exact .inr (.inr (.inl (List.mem_map_of_mem hs)))
  | statement s =>
    simp only [parts, List.cons_append, List.mem_cons, List.mem_append] at hm
    rcases hm with rfl | (hm | hm) | hm
    · exact .inr (.inl ⟨s, rfl, rfl⟩)
    · obtain ⟨slot, hs, rfl⟩ := List.mem_map.mp hm
      exact .inr (.inr (.inl
        (List.mem_append_left _ (List.mem_map_of_mem (List.mem_cons_of_mem _ hs)))))
    · exact .inr (.inr (.inl (List.mem_append_right _ hm)))
    · obtain ⟨link, hl, hn⟩ := List.mem_flatMap.mp hm
      cases served with
      | statement links columned slots sources =>
        obtain ⟨c, offered, rfl⟩ := key_of_mem_ofLink (links link hl) hn
        exact .inr (.inr (.inr (.inr ⟨c, offered, rfl⟩)))

theorem Mapped.unnamed_part_cases {n m : Node} (h : n.Mapped schema native offer)
    (hm : m ∈ n.parts) :
    (∃ e, n = .expression e ∧ m.unnamed = n.unnamed) ∨ m.unnamed ∈ n.unnamed.children ∨
      (∃ value type, m = .expression (.constant value type)) ∨
      ∃ c, offer.below n c.owner c.name ∧ m = .expression (.column c) := by
  rcases h.part_cases hm with ⟨⟨name, e⟩, rfl, rfl⟩ | ⟨s, rfl, rfl⟩ | child | constant | column
  · exact .inl ⟨_, rfl, unnamed_of_kind h.settled.ready.here.1⟩
  · exact .inr (.inl List.mem_cons_self)
  · rw [unnamed_of_ready (h.settled.child child).ready]
    exact .inr (.inl child)
  · exact .inr (.inr (.inl constant))
  · exact .inr (.inr (.inr column))

/-- A name stands nowhere but at a projection as a whole. -/
theorem Mapped.named_part {n : Node} {x : Named} (h : n.Mapped schema native offer)
    (hx : .expression (.named x) ∈ n.parts) : ∃ s, n = .statement s ∧ s.projection = .named x := by
  rcases h.part_cases hx with
    ⟨⟨name, e⟩, rfl, same⟩ | ⟨s, rfl, same⟩ | child | ⟨_, _, same⟩ | ⟨_, -, same⟩
  · obtain rfl := Node.expression.inj same
    exact absurd rfl h.settled.ready.here.1
  · exact ⟨s, rfl, (Node.expression.inj same).symm⟩
  · exact absurd rfl (h.settled.child child).ready.here.1
  · cases same
  · cases same

theorem below_unnamed (offer : Offer) (n : Node) : offer.below n.unnamed = offer.below n := by
  cases n <;> rfl

theorem Mapped.part {n m : Node} (h : n.Mapped schema native offer) (hm : m ∈ n.parts) :
    m.Mapped schema native (offer.below n) := by
  rcases h.unnamed_part_cases hm with
    ⟨e, rfl, same⟩ | child | ⟨value, type, rfl⟩ | ⟨c, offered, rfl⟩
  · exact ⟨same ▸ h.settled, same ▸ h.served⟩
  · exact ⟨h.settled.child child, below_unnamed offer n ▸ h.served.ofChild child⟩
  · exact .ofSettled (Expr.settled_constant value type) (.constant value type)
  · exact .ofSettled (Expr.settled_column c) (.column offered)

theorem Mapped.inside {n : Node} (h : root.Mapped schema native offer) (hn : Inside root n) :
    ∃ offer', n.Mapped schema native offer' := by
  induction hn with
  | root => exact ⟨offer, h⟩
  | part inside part ih =>
    obtain ⟨offer', mapped⟩ := ih
    exact ⟨_, mapped.part part⟩

theorem everywhere_of_children_eq_nil {P : Node → Prop} (hp : ∀ e, P (.expression e)) {e : Expr}
    (h : (Node.expression e).unnamed.children = []) :
    (Node.expression e).unnamed.Everywhere P := by
  refine .intro (hp _) fun child hc => ?_
  rw [h] at hc
  cases hc

/-- What holds throughout a tree, and of constants and columns, holds throughout its parts. -/
theorem Mapped.everywhere_of_part {P : Node → Prop}
    (constant : ∀ value type, P (.expression (.constant value type)))
    (column : ∀ c, P (.expression (.column c))) {n m : Node} (h : n.Mapped schema native offer)
    (everywhere : n.unnamed.Everywhere P) (hm : m ∈ n.parts) : m.unnamed.Everywhere P := by
  rcases h.unnamed_part_cases hm with
    ⟨e, rfl, same⟩ | child | ⟨value, type, rfl⟩ | ⟨c, -, rfl⟩
  · rw [same]
    exact everywhere
  · exact everywhere.child child
  · exact .ofSlots (by simp [Expr.unnamed]) (constant value type) (List.forall_mem_nil _)
  · exact .ofSlots (by simp [Expr.unnamed]) (column c) (List.forall_mem_nil _)

theorem Mapped.everywhere_of_inside {P : Node → Prop}
    (constant : ∀ value type, P (.expression (.constant value type)))
    (column : ∀ c, P (.expression (.column c))) {n : Node} (h : root.Mapped schema native offer)
    (everywhere : root.unnamed.Everywhere P) (hn : Inside root n) : n.unnamed.Everywhere P := by
  induction hn with
  | root => exact everywhere
  | part inside part ih =>
    obtain ⟨offer', mapped⟩ := h.inside inside
    exact mapped.everywhere_of_part constant column ih part

/-- What holds of all statements in a tree holds of those in its parts. -/
theorem Mapped.everywhere_part {P : Node → Prop} (hp : ∀ e, P (.expression e)) {n m : Node}
    (h : n.Mapped schema native offer) (everywhere : n.unnamed.Everywhere P) (hm : m ∈ n.parts) :
    m.unnamed.Everywhere P :=
  h.everywhere_of_part (fun _ _ => hp _) (fun _ => hp _) everywhere hm

theorem Mapped.everywhere_inside {P : Node → Prop} (hp : ∀ e, P (.expression e)) {n : Node}
    (h : root.Mapped schema native offer) (everywhere : root.unnamed.Everywhere P)
    (hn : Inside root n) : n.unnamed.Everywhere P :=
  h.everywhere_of_inside (fun _ _ => hp _) (fun _ => hp _) everywhere hn

end Node

theorem Expr.criterion_slot {e operand : Expr} (h : operand ∈ e.criteria) :
    (Position.predicate, operand) ∈ e.slots := by
  cases e with
  | logical op left right =>
    simp only [criteria, List.mem_cons, List.not_mem_nil, or_false] at h
    rcases h with rfl | rfl <;> simp [slots]
  | not operand =>
    obtain rfl := List.mem_singleton.mp h
    exact List.mem_cons_self
  | case branches otherwise type =>
    obtain ⟨branch, hb, rfl⟩ := List.mem_map.mp h
    exact List.mem_append_left _ (List.mem_flatMap.mpr ⟨branch, hb, List.mem_cons_self⟩)
  | _ => cases h

/-- What writing a node as text asks of it. -/
def Node.Writable (native : Bool) : Node → Prop
  | .expression e =>
    e.kind.isUnresolved = false ∧
      (native = false → ∀ operand ∈ e.criteria,
        operand.isPredicate = true ∨ operand.type.isBoolean = false)
  | .statement s =>
    (∀ table ∈ s.tables, table.source.kinds = []) ∧
      (∀ link ∈ tableLinks s.tables, link.kinds = []) ∧
      (native = false → ∀ c, s.condition = some c → c.isPredicate = true)

variable {schema : Schema} {native : Bool}

theorem Node.Writable.kinds {n : Node} (h : n.Writable native) :
    ∀ kind ∈ n.kinds, kind.isUnresolved = false := by
  intro kind hk
  cases n with
  | expression e =>
    obtain rfl := List.mem_singleton.mp hk
    exact h.1
  | statement s =>
    obtain ⟨sources, links, -⟩ := h
    rcases List.mem_append.mp hk with hk | hk
    · obtain ⟨table, ht, hk⟩ := List.mem_flatMap.mp hk
      rw [sources table ht] at hk
      cases hk
    · obtain ⟨link, hl, hk⟩ := List.mem_flatMap.mp hk
      rw [links link hl] at hk
      cases hk

theorem Source.kinds_of_row {source : Source} {unresolved : String → Violation} {row : Expr}
    (h : source.row schema unresolved = .ok row) : source.kinds = [] := by
  cases source with
  | unresolved itemType => cases h
  | _ => rfl

theorem Link.IsServed.kinds {offer : Offer} {link : Link} (h : link.IsServed offer) :
    link.kinds = [] := by
  unfold Link.IsServed at h
  split at h
  · rfl
  · exact h.elim

theorem Node.Mapped.writable {offer : Offer} {n : Node} (h : n.Mapped schema native offer) :
    n.Writable native := by
  obtain ⟨settled, served⟩ := h
  cases n with
  | expression e =>
    obtain ⟨kind, -, fits⟩ := settled.here
    constructor
    · cases e with
      | tableReference | member | navigation | call => cases kind
      | _ => rfl
    · intro notNative operand ho
      have slot := Expr.criterion_slot ho
      cases e with
      | named n => cases ho
      | _ => exact (fits _ slot).2 notNative
  | statement s =>
    obtain ⟨-, fits, rows, boolean⟩ := settled.here
    cases served with
    | statement links columned slots sources =>
      refine ⟨fun table ht => ?_, fun link hl => (links link hl).kinds, ?_⟩
      · obtain ⟨row, hr⟩ := rows table ht
        exact Source.kinds_of_row hr
      · intro notNative c hc
        have slot : (Position.predicate, c) ∈ s.slots := by
          simp [Statement.slots, Statement.clauses, hc]
        rcases (fits _ slot).2 notNative with predicate | notBoolean
        · exact predicate
        · rw [boolean c hc] at notBoolean
          cases notBoolean

end Comprehension.Sql
