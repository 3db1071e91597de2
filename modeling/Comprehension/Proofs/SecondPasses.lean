import Comprehension.Proofs.Inside
import Comprehension.Proofs.Passes

/-!
What a further pass is given. A pass looks neither into the keys of constant entities nor into joins
and hands them on as they are. Entities are compared by their keys, so a comparison that has been
resolved may show a key that no pass has looked into. Nothing else in what a member stands for is
left to be replaced, but for a single step to another entity. It is by such keys alone that a further
pass comes upon members again.
-/
namespace Comprehension.Sql

/-- Kinds of nodes that stay what they are and of which a pass looks at the slots. -/
def Kind.isSlotted : Kind → Bool
  | entityConstant | named | subStatement => false
  | kind => !kind.isUnresolved

theorem Kind.isSlotted_of_isComposite {kind : Kind} (h : kind.isComposite = true) :
    kind.isSlotted = true := by
  cases kind <;> first | rfl | cases h

theorem Kind.isUnresolved_of_isSlotted {kind : Kind} (h : kind.isSlotted = true) :
    kind.isUnresolved = false ∧ kind ≠ .entityConstant := by
  revert h
  cases kind <;> decide

namespace Node

/-- What a pass looks at right below a node. -/
def visited : Node → List Node
  | .expression (.named n) => [.expression n.expression]
  | n => n.children

/-- The key belongs to a constant entity of the tree, possibly to one in another key. -/
inductive HasKey (key : Expr) : Node → Prop where
  | here {type value} : HasKey key (.expression (.entityConstant type value key))
  | inner {type value outer} (h : HasKey key (.expression outer)) :
      HasKey key (.expression (.entityConstant type value outer))
  | child {n child : Node} (hc : child ∈ n.visited) (h : HasKey key child) : HasKey key n

/-- A comparison shows a key in place of its entity; a key that is a condition is shown as a value. -/
def Shows (K : Expr → Prop) (n child : Node) : Prop :=
  ∃ op left right type key, n = .expression (.binary op left right type) ∧
    (op = .equal ∨ op = .notEqual) ∧ K key ∧
    (child = .expression key ∨ child = .expression key.asValue)

/-- Nothing that a pass looks at is left to be replaced, but for what is shown of some keys. -/
inductive Cleared (K : Expr → Prop) : Node → Prop where
  | intro {n : Node} (here : ∀ e, n = .expression e → e.kind.isUnresolved = false)
      (below : ∀ child ∈ n.visited, ¬ Shows K n child → Cleared K child) : Cleared K n

/-- Nothing that a pass looks at is left to be replaced. -/
def AllClear (n : Node) : Prop := n.Cleared fun _ => False

/-- All keys of the tree are among these. -/
def KeysIn (K : Expr → Prop) (n : Node) : Prop := ∀ key, n.HasKey key → K key

/-- What a pass makes of a tree whose keys are among these. -/
structure Done (K : Expr → Prop) (n : Node) : Prop where
  cleared : n.Cleared K
  keys : n.KeysIn K

/-- Such an expression may be an operand: all is done, or the operand shows a key. -/
def Operand (K : Expr → Prop) (op : BinaryOp) (e : Expr) : Prop :=
  (expression e).KeysIn K ∧ ((expression e).Cleared K ∨
    (op = .equal ∨ op = .notEqual) ∧ ∃ key, K key ∧ (e = key ∨ e = key.asValue))

variable {K K' : Expr → Prop} {n m : Node}

theorem visited_of_slot {e : Expr} {slot : Position × Expr} (hs : slot ∈ e.slots) :
    .expression slot.2 ∈ (Node.expression e).visited := by
  cases e with
  | named n => cases hs
  | subStatement s => cases hs
  | _ => exact List.mem_map_of_mem hs

theorem HasKey.trans {key outer : Expr} (h : n.HasKey outer) (hk : (expression outer).HasKey key) :
    n.HasKey key := by
  induction h with
  | here => exact .inner hk
  | inner h ih => exact .inner ih
  | child hc h ih => exact .child hc ih

theorem KeysIn.child (h : n.KeysIn K) (hm : m ∈ n.visited) : m.KeysIn K :=
  fun key hk => h key (.child hm hk)

theorem KeysIn.slot {e : Expr} (h : (expression e).KeysIn K) {slot : Position × Expr}
    (hs : slot ∈ e.slots) : (expression slot.2).KeysIn K :=
  h.child (visited_of_slot hs)

/-- A node that is no constant entity has the keys of what is below it. -/
theorem KeysIn.intro (here : ∀ e, n = .expression e → e.kind ≠ .entityConstant)
    (below : ∀ m ∈ n.visited, m.KeysIn K) : n.KeysIn K := by
  intro key h
  cases h with
  | here => exact absurd rfl (here _ rfl)
  | inner h => exact absurd rfl (here _ rfl)
  | child hm h => exact below _ hm key h

theorem KeysIn.constant {type : ValueType} {value : Value} {key : Expr} (hk : K key)
    (inner : (expression key).KeysIn K) : (expression (.entityConstant type value key)).KeysIn K := by
  intro key' h
  cases h with
  | here => exact hk
  | inner h => exact inner key' h
  | child hm h => cases hm

theorem visited_of_isSlotted {e : Expr} (slotted : e.kind.isSlotted = true) :
    (expression e).visited = e.slots.map fun slot => .expression slot.2 := by
  cases e <;> first | rfl | cases slotted

theorem KeysIn.ofSlots {e : Expr} (slotted : e.kind.isSlotted = true)
    (slots : ∀ slot ∈ e.slots, (expression slot.2).KeysIn K) : (expression e).KeysIn K := by
  refine .intro (by rintro _ ⟨⟩; exact (Kind.isUnresolved_of_isSlotted slotted).2) fun m hm => ?_
  rw [visited_of_isSlotted slotted] at hm
  obtain ⟨slot, hs, rfl⟩ := List.mem_map.mp hm
  exact slots slot hs

theorem Cleared.ofSlots {e : Expr} (slotted : e.kind.isSlotted = true)
    (slots : ∀ slot ∈ e.slots, Shows K (.expression e) (.expression slot.2) ∨
      (expression slot.2).Cleared K) : (expression e).Cleared K := by
  refine .intro (by rintro _ ⟨⟩; exact (Kind.isUnresolved_of_isSlotted slotted).1) ?_
  intro m hm hidden
  rw [visited_of_isSlotted slotted] at hm
  obtain ⟨slot, hs, rfl⟩ := List.mem_map.mp hm
  exact (slots slot hs).resolve_left hidden

/-- Only comparisons show anything. -/
theorem Cleared.child (h : n.Cleared K) (hm : m ∈ n.visited)
    (apart : ∀ e, n = .expression e → e.kind ≠ .binary) : m.Cleared K := by
  cases h with
  | intro here below =>
    refine below m hm ?_
    rintro ⟨op, left, right, type, key, rfl, -⟩
    exact apart _ rfl rfl

theorem slots_asValue (e : Expr) :
    e.asValue.slots = [(.predicate, e), (.singleValue, .int 1), (.singleValue, .int 0)] := rfl

theorem Cleared.asValue {e : Expr} (h : (expression e).Cleared K) :
    (expression e.asValue).Cleared K := by
  refine .ofSlots rfl ?_
  simp only [slots_asValue, List.forall_mem_cons]
  refine ⟨.inr h, .inr ?_, .inr ?_, List.forall_mem_nil _⟩
  all_goals exact .ofSlots rfl (by simp [Expr.int, Expr.slots])

theorem KeysIn.asValue {e : Expr} (h : (expression e).KeysIn K) :
    (expression e.asValue).KeysIn K := by
  refine .ofSlots rfl ?_
  simp only [slots_asValue, List.forall_mem_cons]
  refine ⟨h, ?_, ?_, List.forall_mem_nil _⟩
  all_goals exact .ofSlots rfl (by simp [Expr.int, Expr.slots])

/-- Keys that hold nothing to be replaced need no mention. -/
theorem Cleared.narrow (h : n.Cleared K)
    (hk : ∀ key, K key → K' key ∨ (expression key).Cleared K') : n.Cleared K' := by
  induction h with
  | @intro n here below ih =>
    refine .intro here fun m hm hidden => ?_
    by_cases shown : Shows K n m
    · -- A key that could be shown before can be shown still, or there is nothing in it to replace.
      obtain ⟨op, left, right, type, key, rfl, compares, hkey, hm⟩ := shown
      rcases hk key hkey with hkey' | cleared
      · exact absurd ⟨op, left, right, type, key, rfl, compares, hkey', hm⟩ hidden
      · rcases hm with rfl | rfl
        · exact cleared
        · exact cleared.asValue
    · exact ih m hm shown

namespace Done

theorem ofSlots {e : Expr} (slotted : e.kind.isSlotted = true)
    (slots : ∀ slot ∈ e.slots, (expression slot.2).Done K) : (expression e).Done K :=
  ⟨.ofSlots slotted fun slot hs => .inr (slots slot hs).cleared,
    .ofSlots slotted fun slot hs => (slots slot hs).keys⟩

theorem child (h : n.Done K) (hm : m ∈ n.visited)
    (apart : ∀ e, n = .expression e → e.kind ≠ .binary) : m.Done K :=
  ⟨h.cleared.child hm apart, h.keys.child hm⟩

/-- A node around others that are done. -/
theorem around (here : ∀ e, n = .expression e → e.kind.isUnresolved = false ∧ e.kind ≠ .entityConstant)
    (below : ∀ m ∈ n.visited, m.Done K) : n.Done K :=
  ⟨.intro (fun e he => (here e he).1) fun m hm _ => (below m hm).cleared,
    .intro (fun e he => (here e he).2) fun m hm => (below m hm).keys⟩

theorem named {name : Option String} {e : Expr} (h : (expression e).Done K) :
    (expression (.named ⟨name, e⟩)).Done K := by
  refine around (by rintro _ ⟨⟩; exact ⟨rfl, by simp [Expr.kind]⟩) fun m hm => ?_
  obtain rfl := List.mem_singleton.mp hm
  exact h

theorem unnamed {e : Expr} (h : (expression e).Done K) : (expression e.unnamed).Done K := by
  cases e with
  | named n =>
    obtain ⟨name, e⟩ := n
    exact h.child List.mem_cons_self (by rintro _ ⟨⟩; simp [Expr.kind])
  | _ => exact h

theorem renamed_unnamed {e : Expr} (h : (expression e).Done K) (projection : Expr) :
    (expression (projection.renamed e).unnamed).Done K := by
  cases projection with
  | named n =>
    cases n
    exact h
  | _ => exact h.unnamed

theorem int (i : Int) : (expression (.int i)).Done K := .ofSlots rfl (List.forall_mem_nil _)

theorem operand {e : Expr} (h : (expression e).Done K) (op : BinaryOp) : Operand K op e :=
  ⟨h.keys, .inl h.cleared⟩

theorem binary {op : BinaryOp} {left right : Expr} {type : ValueType} (hl : Operand K op left)
    (hr : Operand K op right) : (expression (.binary op left right type)).Done K := by
  have shown {e : Expr} (h : Operand K op e) :
      Shows K (.expression (.binary op left right type)) (.expression e) ∨
        (expression e).Cleared K := by
    rcases h.2 with cleared | ⟨compares, key, hkey, rfl | rfl⟩
    · exact .inr cleared
    · exact .inl ⟨op, left, right, type, _, rfl, compares, hkey, .inl rfl⟩
    · exact .inl ⟨op, left, right, type, _, rfl, compares, hkey, .inr rfl⟩
  refine ⟨.ofSlots rfl ?_, .ofSlots rfl ?_⟩
  all_goals simp only [Expr.slots, List.forall_mem_cons]
  · exact ⟨shown hl, shown hr, List.forall_mem_nil _⟩
  · exact ⟨hl.1, hr.1, List.forall_mem_nil _⟩

theorem asValue {e : Expr} (h : (expression e).Done K) : (expression e.asValue).Done K :=
  ⟨h.cleared.asValue, h.keys.asValue⟩

theorem adapted {native : Bool} {position : Position} {e e' : Expr} (h : (expression e).Done K)
    (fits : Expr.adapted native position e = .ok e') : (expression e').Done K := by
  rcases Expr.adapted_cases fits with rfl | ⟨-, rfl⟩ | ⟨-, -, rfl⟩ | ⟨value, -, rfl⟩
  · exact h
  · exact h.asValue
  · exact binary (h.operand _) ((int 1).operand _)
  · exact binary ((int 1).operand _) ((int 1).operand _)

end Done

end Node

open Node

/-- The keys that trees are made with: those of constants that a schema maps are among them, and with
a key those inside it. -/
structure IsKeySet (K : Expr → Prop) : Prop where
  constant : ∀ value type, K (.constant value type)
  inner : ∀ key, K key → (Node.expression key).KeysIn K

variable {schema : Schema} {native : Bool} {K : Expr → Prop}

theorem Expr.PartOf.done {tableAlias : String} {e : Expr} (h : e.PartOf tableAlias) :
    (Node.expression e).Done K := by
  cases h <;> exact .ofSlots rfl (by simp [Expr.slots])

theorem Expr.RowOf.done {tableAlias : String} {e : Expr} (h : e.RowOf tableAlias) :
    (Node.expression e).Done K := by
  rcases h with h | ⟨members, rfl, h⟩
  · exact h.done
  · refine .ofSlots rfl fun slot hs => ?_
    obtain ⟨n, hn, rfl⟩ := List.mem_map.mp hs
    exact (h n hn).done

theorem Expr.done_of_leaf {e : Expr} (leaf : e.kind.isLeaf = true)
    (keys : (Node.expression e).KeysIn K) : (Node.expression e).Done K := by
  cases e with
  | column | literal | customText | entity | entityReference =>
    exact .ofSlots rfl (List.forall_mem_nil _)
  | entityConstant type value key =>
    exact ⟨.intro (by rintro _ ⟨⟩; rfl) (by rintro m ⟨⟩), keys⟩
  | _ => cases leaf

theorem Expr.done_of_constant (set : IsKeySet K) {value : Value} {type : ValueType} {e : Expr}
    (mapped : schema.constant value type = .ok e) : (Node.expression e).Done K := by
  rcases Schema.constant_eq_ok mapped with ⟨_, id, keyType, -, rfl⟩ | ⟨-, rfl⟩
  · exact done_of_leaf rfl (.constant (set.constant id keyType) (.ofSlots rfl (List.forall_mem_nil _)))
  · exact .ofSlots rfl (List.forall_mem_nil _)

/-- What a member stands for is a part of what it is a member of, or a column, or a step. -/
theorem Expr.done_of_memberOf {e found : Expr} {member : String} (h : (Node.expression e).Done K)
    (mapped : e.memberOf schema member = .ok found) :
    found.kind = .navigation ∧ (Node.expression found).KeysIn K ∨ (Node.expression found).Done K := by
  induction e using named_induction with
  | named name e ih => exact ih h.unnamed mapped
  | other e unnamed =>
    rcases memberOf_cases unnamed mapped with
      ⟨entity, type, rfl⟩ | ⟨c, rfl⟩ | ⟨members, n, hn, rfl, rfl⟩
    · exact .inl ⟨rfl, .intro (by rintro _ ⟨⟩; simp [kind]) (List.forall_mem_nil _)⟩
    · exact .inr (.ofSlots rfl (List.forall_mem_nil _))
    · exact .inr (h.child (List.mem_map_of_mem (List.mem_map_of_mem hn))
        (by rintro _ ⟨⟩; simp [kind]))

theorem Expr.adapted_singleValue {e e' : Expr} (fits : adapted native .singleValue e = .ok e') :
    e' = e ∨ e' = e.asValue := by
  rw [adapted_eq] at fits
  split at fits
  · cases fits
  · obtain rfl := Except.ok.inj fits
    cases native with
    | true => exact .inl rfl
    | false =>
      simp only [converted, Bool.false_eq_true, if_false]
      split
      · exact .inr rfl
      · exact .inl rfl

/-- The identity of an entity is all done, or it is a key. -/
theorem Expr.done_of_identity {e e' : Expr} (h : (Node.expression e).Done K)
    (identity : e.identity = .ok e') : (Node.expression e').Done K ∨ K e' := by
  induction e using named_induction with
  | named name e ih => exact ih h.unnamed identity
  | other e unnamed =>
    rcases identity_cases unnamed identity with ⟨c, rfl⟩ | ⟨type, value, rfl⟩ | rfl
    · exact .inl (.ofSlots rfl (List.forall_mem_nil _))
    · exact .inr (h.keys e' .here)
    · exact .inl h

theorem IsKeySet.operand (set : IsKeySet K) {op : BinaryOp} {e e' : Expr}
    (compares : op = .equal ∨ op = .notEqual) (hk : K e)
    (fits : Expr.adapted native .singleValue e = .ok e') : Operand K op e' := by
  rcases Expr.adapted_singleValue fits with rfl | rfl
  · exact ⟨set.inner _ hk, .inr ⟨compares, _, hk, .inl rfl⟩⟩
  · exact ⟨(set.inner _ hk).asValue, .inr ⟨compares, _, hk, .inr rfl⟩⟩

/-- Of the operands of a binary node, keys alone may be left to be replaced. -/
theorem IsKeySet.binary (set : IsKeySet K) {op : BinaryOp}
    {left right left₁ right₁ left₂ right₂ : Expr} {type : ValueType}
    (hl : (Node.expression left).Done K) (hr : (Node.expression right).Done K)
    (compared : identities op left right = .ok (left₁, right₁))
    (leftFits : Expr.adapted native .singleValue left₁ = .ok left₂)
    (rightFits : Expr.adapted native .singleValue right₁ = .ok right₂) :
    (Node.expression (.binary op left₂ right₂ type)).Done K := by
  rcases Expr.identities_eq_ok compared with ⟨⟨compares, -⟩, hli, hri⟩ | ⟨-, rfl, rfl⟩
  · have operand {e e₁ e₂ : Expr} (h : (Node.expression e).Done K) (identity : e.identity = .ok e₁)
        (fits : Expr.adapted native .singleValue e₁ = .ok e₂) : Operand K op e₂ :=
      (Expr.done_of_identity h identity).elim (fun done => (done.adapted fits).operand op)
        fun hk => set.operand compares hk fits
    exact .binary (operand hl hli leftFits) (operand hr hri rightFits)
  · exact .binary ((hl.adapted leftFits).operand op) ((hr.adapted rightFits).operand op)

/-- With the keys of a tree among these, each rule leaves nothing to be replaced but for keys that
are shown. -/
def Clears (K : Expr → Prop) : Judgement → Prop
  | .expression rows _ e _ _ e' _ _ =>
    PlainRows rows → (Node.expression e).KeysIn K → (Node.expression e').Done K
  | .fitted rows _ e _ _ e' _ _ =>
    PlainRows rows → (Node.expression e).KeysIn K → (Node.expression e').Done K
  | .slots rows slots _ _ slots' _ _ =>
    PlainRows rows → (∀ slot ∈ slots, (Node.expression slot.2).KeysIn K) →
      ∀ slot ∈ slots', (Node.expression slot.2).Done K
  | .source rows source _ source' _ =>
    PlainRows rows → (∀ s, source.statement? = some s → (Node.statement s).KeysIn K) →
      ∀ s, source'.statement? = some s → (Node.statement s).Done K
  | .tables rows tables _ tables' _ _ =>
    PlainRows rows → (∀ s ∈ sourceStatements tables, (Node.statement s).KeysIn K) →
      ∀ s ∈ sourceStatements tables', (Node.statement s).Done K
  | .statement rows s _ s' _ =>
    PlainRows rows → (Node.statement s).KeysIn K → (Node.statement s').Done K

theorem Resolved.clears (set : IsKeySet K) {j : Judgement} (h : Resolved schema native j) :
    Clears K j := by
  induction h with
  | leaf leaf => exact fun _ keys => Expr.done_of_leaf leaf keys
  | constant mapped => exact fun _ _ => Expr.done_of_constant set mapped
  | tableReference found =>
    intro plain _
    obtain ⟨tableAlias, row⟩ := plain.of_lookup found
    exact row.done
  | member owner mapped again ihOwner ihAgain =>
    intro plain keys
    have owner := ihOwner plain (keys.child List.mem_cons_self)
    -- What is found may be a step that is yet to be taken, so the next pass is told of its keys only.
    exact ihAgain plain ((Expr.done_of_memberOf owner mapped).elim And.right Done.keys)
  | navigation followed =>
    intro _ _
    obtain ⟨⟨tableAlias, row⟩, -⟩ := Entity.row_of_navigate followed
    exact row.done
  | binary first second compared leftFits rightFits ihFirst ihSecond =>
    intro plain keys
    have left := ihFirst plain (keys.child List.mem_cons_self)
    have right := ihSecond plain (keys.child (List.mem_cons_of_mem _ List.mem_cons_self))
    exact set.binary left right compared leftFits rightFits
  | composite composite kind type isPredicate wording labels slots ih =>
    intro plain keys
    exact .ofSlots (Kind.isSlotted_of_isComposite (kind ▸ composite))
      (ih plain fun slot hs => keys.slot hs)
  | named inner ih => exact fun plain keys => (ih plain (keys.child List.mem_cons_self)).named
  | subStatement inner ih =>
    intro plain keys
    refine .around (by rintro _ ⟨⟩; exact ⟨rfl, by simp [Expr.kind]⟩) fun m hm => ?_
    obtain rfl := List.mem_singleton.mp hm
    exact ih plain (keys.child List.mem_cons_self)
  | fitted resolved fits ih => exact fun plain keys => (ih plain keys).adapted fits
  | noSlot => exact fun _ _ => List.forall_mem_nil _
  | slot first rest ihFirst ihRest =>
    intro plain keys
    rw [List.forall_mem_cons] at keys ⊢
    exact ⟨ihFirst plain keys.1, ihRest plain keys.2⟩
  | unresolvedSource mapped =>
    intro _ _ s hs
    obtain ⟨mapping, -, rfl, -⟩ := Mapping.source_eq_ok mapped
    cases hs
  | tableSource => exact fun _ _ s hs => by cases hs
  | statementSource inner ih =>
    intro plain keys s hs
    obtain rfl := Option.some.inj hs
    exact ih plain (keys _ rfl)
  | noTable => exact fun _ _ => List.forall_mem_nil _
  | table first exposed rest ihFirst ihRest =>
    intro plain keys s hs
    rcases mem_sourceStatements_cons.mp hs with hs | hs
    · exact ihFirst plain (fun s hs => keys s (mem_sourceStatements_cons.mpr (.inl hs))) s hs
    · exact ihRest (plain.cons _ exposed)
        (fun s hs => keys s (mem_sourceStatements_cons.mpr (.inr hs))) s hs
  | @statement rows s f tables₁ rows₁ f₁ tables₂ f₂ root s' f' sources joins slots projection shape
      isDistinct condition ihSources ihSlots =>
    intro plain keys
    have sourcesDone := ihSources plain fun inner hi =>
      keys.child (List.mem_append_right _ (List.mem_map_of_mem hi))
    have slotsDone := ihSlots (sources.frames plain) fun slot hs =>
      keys.child (List.mem_append_left _ (List.mem_map_of_mem hs))
    rw [List.forall_mem_cons] at slotsDone
    refine .around (by rintro _ ⟨⟩) fun m hm => ?_
    rcases List.mem_append.mp hm with hm | hm
    · obtain ⟨slot, hs, rfl⟩ := List.mem_map.mp hm
      rcases List.mem_cons.mp hs with rfl | hs
      · rw [projection]
        exact slotsDone.1.renamed_unnamed _
      · exact slotsDone.2 slot hs
    · obtain ⟨inner, hi, rfl⟩ := List.mem_map.mp hm
      rw [Resolved.sourceStatements_eq joins slots] at hi
      exact sourcesDone inner hi

section Count

def Node.memberCount : Node → Nat
  | .expression e => e.memberCount
  | .statement s => s.memberCount

theorem Expr.memberCount_asValue (e : Expr) : e.asValue.memberCount = e.memberCount := by
  simp [asValue, memberCount, branchesMemberCount, optionMemberCount, int]

/-- Members that are not in a key are members of what a pass looks at. -/
theorem Node.memberCount_eq_zero_of_visited {n : Node}
    (here : ∀ e, n = .expression e → e.kind ≠ .member ∧ e.kind ≠ .entityConstant)
    (below : ∀ m ∈ n.visited, m.memberCount = 0) : n.memberCount = 0 := by
  cases n with
  | expression e =>
    have slots (slot : Position × Expr) (hs : slot ∈ e.slots) : slot.2.memberCount = 0 :=
      below _ (visited_of_slot hs)
    cases e with
    | column | constant | literal | customText | entity | entityReference | navigation
    | tableReference | call => rfl
    | entityConstant => exact absurd rfl (here _ rfl).2
    | member => exact absurd rfl (here _ rfl).1
    | binary op left right type =>
      simp only [Expr.slots, List.forall_mem_cons] at slots
      exact Nat.add_eq_zero_iff.mpr ⟨slots.1, slots.2.1⟩
    | named n =>
      obtain ⟨name, e⟩ := n
      exact below (.expression e) List.mem_cons_self
    | subStatement s => exact below (.statement s) List.mem_cons_self
    | like | likeEscape | logical | not | case | function | convert | aggregation | rowNumber
    | compound =>
      exact (Expr.memberCount_of_composite rfl).trans (slotsMemberCount_eq_zero slots)
  | statement s =>
    have slots : slotsMemberCount s.slots = 0 := slotsMemberCount_eq_zero fun slot hs =>
      below _ (List.mem_append_left _ (List.mem_map_of_mem hs))
    have sources : tablesMemberCount s.tables = 0 := by
      rw [tablesMemberCount_eq]
      exact statementsMemberCount_eq_zero fun inner hi =>
        below _ (List.mem_append_right _ (List.mem_map_of_mem hi))
    rw [memberCount, Statement.memberCount_eq, slots, sources]

/-- Where all members are replaced but for those in keys, and keys hold none, there are none. -/
theorem Node.Done.memberCount_eq_zero {n : Node} (h : n.Done K)
    (none : ∀ key, K key → key.memberCount = 0) : n.memberCount = 0 := by
  obtain ⟨cleared, keys⟩ := h
  induction cleared with
  | @intro n here below ih =>
    have visited (m : Node) (hm : m ∈ n.visited) : m.memberCount = 0 := by
      by_cases shown : Shows K n m
      · obtain ⟨_, _, _, _, key, -, -, hkey, rfl | rfl⟩ := shown
        · exact none key hkey
        · exact (key.memberCount_asValue).trans (none key hkey)
      · exact ih m hm shown (keys.child hm)
    -- A key is counted with its constant, though no pass looks at it.
    by_cases constant : ∃ type value key, n = .expression (.entityConstant type value key)
    · obtain ⟨type, value, key, rfl⟩ := constant
      exact none key (keys key .here)
    · refine memberCount_eq_zero_of_visited (fun e he => ⟨fun member => ?_, fun kind => ?_⟩) visited
      · have := here e he
        rw [member] at this
        cases this
      · cases e with
        | entityConstant type value key => exact constant ⟨type, value, key, he⟩
        | _ => cases kind

end Count

/-- What a member of a resolved expression stands for, with the tables and the fresh names when it is
resolved in turn. -/
def HandsOn (r : Resolver) (again : Reentry) (rows : Rows) (source : Expr) (name : String)
    (tables : List Table) (f : Fresh) (found : Expr) (tables' : List Table) (f' : Fresh) : Prop :=
  ∃ owner, r.fit .value (source.resolve r again rows .value) tables f = .ok ((owner, tables'), f') ∧
    owner.memberOf r.mapping.schema name = .ok found

section HandsOn

variable {again : Reentry} {rows : Rows} {source found : Expr} {name : String}
  {tables tables' : List Table} {f f' : Fresh}

/-- An access to a member is resolved by resolving what the member stands for. -/
theorem HandsOn.resolve_member {r : Resolver}
    (h : HandsOn r again rows source name tables f found tables' f') (position : Position)
    (type : ValueType) :
    (Expr.member source name type).resolve r again rows position tables f =
      again.expression rows position found tables' f' := by
  obtain ⟨owner, run, mapped⟩ := h
  simp only [Expr.resolve]
  refine (Joining.bind_of_ok run).trans ?_
  exact Joining.bind_of_ok (Joining.lift_eq_ok.mpr ⟨mapped, rfl, rfl⟩)

theorem HandsOn.resolved (follows : again.Follows schema native)
    (h : HandsOn ⟨Mapping.ofSchema schema, native⟩ again rows source name tables f found tables' f') :
    ∃ owner, Resolved schema native (.fitted rows .value source tables f owner tables' f') ∧
      owner.memberOf schema name = .ok found := by
  obtain ⟨owner, run, mapped⟩ := h
  exact ⟨owner, resolved_of_fit (fun _ => source.resolved_of_resolve follows) run, mapped⟩

theorem HandsOn.memberCount_lt (follows : again.Follows schema native) (plain : PlainRows rows)
    (h : HandsOn ⟨Mapping.ofSchema schema, native⟩ again rows source name tables f found tables' f')
    (type : ValueType) : found.memberCount < (Expr.member source name type).memberCount := by
  obtain ⟨owner, resolved, mapped⟩ := h.resolved follows
  exact Nat.lt_succ_of_le
    (Nat.le_trans (Expr.memberCount_of_memberOf mapped) (resolved.shrinks plain))

theorem HandsOn.done (follows : again.Follows schema native) (plain : PlainRows rows)
    (h : HandsOn ⟨Mapping.ofSchema schema, native⟩ again rows source name tables f found tables' f')
    (set : IsKeySet K) (keys : (Node.expression source).KeysIn K) :
    found.kind = .navigation ∨ (Node.expression found).Done K := by
  obtain ⟨owner, resolved, mapped⟩ := h.resolved follows
  exact (Expr.done_of_memberOf (resolved.clears set plain keys) mapped).imp_left And.left

/-- The keys of an expression, and those that a schema makes up for constants. -/
def Expr.OwnsKey (e key : Expr) : Prop :=
  (Node.expression e).HasKey key ∨ ∃ value type, key = .constant value type

theorem Expr.isKeySet_ownsKey (e : Expr) : IsKeySet e.OwnsKey where
  constant value type := .inr ⟨value, type, rfl⟩
  inner key hk := by
    rcases hk with hk | ⟨value, type, rfl⟩
    · exact fun inner hi => .inl (hk.trans hi)
    · exact .ofSlots rfl (List.forall_mem_nil _)

/-- In what a member stands for, only the keys of what it is a member of are left to be replaced. -/
theorem HandsOn.cleared (follows : again.Follows schema native) (plain : PlainRows rows)
    (h : HandsOn ⟨Mapping.ofSchema schema, native⟩ again rows source name tables f found tables' f') :
    found.kind = .navigation ∨
      (Node.expression found).Cleared fun key => (Node.expression source).HasKey key := by
  refine (h.done follows plain source.isKeySet_ownsKey fun key hk => .inl hk).imp_right fun done => ?_
  refine done.cleared.narrow fun key hk => hk.imp_right ?_
  rintro ⟨value, type, rfl⟩
  exact .ofSlots rfl (List.forall_mem_nil _)

/-- Where no key holds a member, what a member stands for holds none. -/
theorem HandsOn.memberCount_eq_zero (follows : again.Follows schema native) (plain : PlainRows rows)
    (h : HandsOn ⟨Mapping.ofSchema schema, native⟩ again rows source name tables f found tables' f')
    (none : ∀ key, (Node.expression source).HasKey key → key.memberCount = 0) :
    found.memberCount = 0 := by
  rcases h.done follows plain source.isKeySet_ownsKey fun key hk => .inl hk with step | done
  · cases found with
    | navigation => rfl
    | _ => cases step
  · refine done.memberCount_eq_zero (n := .expression found) fun key hk => ?_
    rcases hk with hk | ⟨value, type, rfl⟩
    · exact none key hk
    · rfl

/-- A record that holds the rows of the first table. -/
def wrappedRow : Expr := .compound [⟨some "Row", .tableReference 0 .object⟩]

/-- Rows of a source with so many columns. -/
def wideRow (width : Nat) : Expr :=
  .compound (List.replicate width ⟨some "ID", .column ⟨.int32, "t0", "ID", true⟩⟩)

theorem plainRows_wideRow (width : Nat) : PlainRows [(0, wideRow width)] := by
  refine List.forall_mem_singleton.mpr ⟨"t0", .inr ⟨_, rfl, fun n hn => ?_⟩⟩
  rw [List.eq_of_mem_replicate hn]
  exact .column rfl

/-- What a member stands for can be as large as the rows of a source are wide. -/
theorem handsOn_wrappedRow (again : Reentry) (width : Nat) (tables : List Table) (f : Fresh) :
    HandsOn ⟨Mapping.ofSchema schema, native⟩ again [(0, wideRow width)] wrappedRow "Row" tables f
      (wideRow width) tables f := by
  refine ⟨.compound [⟨some "Row", wideRow width⟩], ?_, rfl⟩
  cases native <;> rfl

end HandsOn

/-- Resolution re-enters itself and yet ends. There is exactly one way to resolve every tree in which
a member is resolved by resolving what it stands for, and statements are resolved in this way. What a
member stands for has fewer members than the access to it, however large it is. But for a step to
another entity it holds nothing to be replaced outside of keys, except where a comparison shows a key
of what the member belongs to; so when no such key holds a member, no further pass is needed. -/
theorem resolution_by_recursion (schema : Schema) (native : Bool) :
    let r : Resolver := ⟨Mapping.ofSchema schema, native⟩
    ∃ again : Reentry, again.Recurs r ∧ (∀ other : Reentry, other.Recurs r → other.Agree again) ∧
      (∀ s : Statement, s.resolve r.mapping native = s.resolveIn r again []) ∧
      (∀ rows tables f tables' rows' f', PlainRows rows →
        resolveTables r again rows tables f = .ok ((tables', rows'), f') → PlainRows rows') ∧
      (∀ rows source name tables f found tables' f', PlainRows rows →
        HandsOn r again rows source name tables f found tables' f' →
          (∀ position type, (Expr.member source name type).resolve r again rows position tables f =
            found.resolve r again rows position tables' f') ∧
          (∀ type, found.memberCount < (Expr.member source name type).memberCount) ∧
          (found.kind = .navigation ∨
            (Node.expression found).Cleared fun key => (Node.expression source).HasKey key) ∧
          ((∀ key, (Node.expression source).HasKey key → (Node.expression key).AllClear) →
            found.kind = .navigation ∨ (Node.expression found).AllClear) ∧
          ((∀ key, (Node.expression source).HasKey key → key.memberCount = 0) →
            ∀ position other, found.resolve r other rows position =
              found.resolve r again rows position)) ∧
      ∃ source name, ∀ n, ∃ rows found, PlainRows rows ∧ n ≤ found.slots.length ∧
        ∀ tables f, HandsOn r again rows source name tables f found tables f := by
  intro r
  refine ⟨.complete r, Reentry.complete_recurs, fun other => Reentry.Recurs.agree_complete,
    Statement.resolve_eq, ?_, ?_, wrappedRow, "Row", fun n => ?_⟩
  · intro rows tables f tables' rows' f' plain run
    exact (resolved_of_resolveTables Reentry.complete_follows tables run).frames plain
  · intro rows source name tables f found tables' f' plain h
    have cleared := h.cleared Reentry.complete_follows plain
    refine ⟨fun position type => ?_, h.memberCount_lt Reentry.complete_follows plain, cleared, ?_, ?_⟩
    · rw [h.resolve_member, Reentry.complete_recurs.expression rows plain]
    · exact fun clear => cleared.imp_right fun cleared => cleared.narrow fun key hk => .inr (clear key hk)
    · exact fun none position other => Expr.resolve_of_memberCount_eq_zero
        (h.memberCount_eq_zero Reentry.complete_follows plain none) plain position _ _
  · refine ⟨[(0, wideRow n)], wideRow n, plainRows_wideRow n, ?_, handsOn_wrappedRow _ n⟩
    simp [wideRow, Expr.slots]

section Cook

/-- The key of cooks, among the rows of a source of them. -/
def cookId : Column := ⟨.int32, "t0", "ID", true⟩

def aCook : Expr := .entity ⟨"Cook", "t0", none, cookId, [cookId]⟩

/-- The cook with some key. -/
def cookWithKey (key : Expr) : Expr := .entityConstant (.entity "Cook") (.entity "Cook" (.int 7)) key

/-- A record of whether a cook is the one with the key seven. -/
def isSeventh (cook : Expr) : Expr :=
  .compound [⟨some "A", .binary .equal cook (cookWithKey (.constant (.int 7) .int32)) .boolean⟩]

/-- With a constant for its key, a constant cook is resolved once and for all. -/
theorem seventh_cook_resolved_once :
    let r : Resolver := ⟨Mapping.ofSchema .restaurant, true⟩
    let found : Expr := .binary .equal (.column cookId) (.constant (.int 7) .int32) .boolean
    ∃ again : Reentry, again.Recurs r ∧ HandsOn r again [] (isSeventh aCook) "A" [] {} found [] {} ∧
      ∀ position other, found.resolve r other [] position = found.resolve r again [] position := by
  intro r found
  obtain ⟨again, recurs, -, -, -, handed, -⟩ := resolution_by_recursion .restaurant true
  have hands : HandsOn r again [] (isSeventh aCook) "A" [] {} found [] {} := ⟨_, rfl, rfl⟩
  refine ⟨again, recurs, hands,
    (handed [] _ _ _ _ _ _ _ (List.forall_mem_nil _) hands).2.2.2.2 ?_⟩
  refine KeysIn.ofSlots (K := fun key => key.memberCount = 0) rfl (List.forall_mem_singleton.mpr ?_)
  refine .ofSlots rfl (List.forall_mem_cons.mpr ⟨?_, List.forall_mem_singleton.mpr ?_⟩)
  · exact .ofSlots rfl (List.forall_mem_nil _)
  · exact .constant rfl (.ofSlots rfl (List.forall_mem_nil _))

/-- A key that is itself an access to a member comes up when the cook is compared, and is resolved in
a further pass. -/
theorem compared_key_resolved_again :
    let r : Resolver := ⟨Mapping.ofSchema .restaurant, true⟩
    let key : Expr := .member aCook "ID" .int32
    let found : Expr := .binary .equal key (.constant (.int 7) .int32) .boolean
    HandsOn r (.complete r) [] (isSeventh (cookWithKey key)) "A" [] {} found [] {} ∧
      found.kind ≠ .navigation ∧ ¬ (Node.expression found).AllClear ∧
      found.resolve r (.complete r) [] .value [] {} =
        .ok ((.binary .equal (.column cookId) (.constant (.int 7) .int32) .boolean, []), {}) ∧
      found.resolve r (.upTo r 0) [] .value [] {} = .error (.contract .endlessSource) := by
  intro r key found
  refine ⟨⟨_, rfl, rfl⟩, by simp [found, Expr.kind], fun clear => ?_, rfl, rfl⟩
  cases clear with
  | intro here below =>
    have operand := below (.expression key) List.mem_cons_self
      (by rintro ⟨_, _, _, _, _, -, -, hk, -⟩; exact hk)
    cases operand with
    | intro here below => cases here _ rfl

end Cook

end Comprehension.Sql
