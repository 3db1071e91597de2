import Comprehension.Proofs.Settled
import Mathlib.Data.List.Forall2

/-!
The names of the columns that a projection has, as far as they are known. Resolution replaces the
parts whose columns are not known yet, and keeps the names of all others.
-/
namespace Comprehension.Sql

/-- Kinds of nodes that are one value, which has no name by itself. -/
def Kind.isComputed : Kind → Bool
  | constant | literal | customText | entityConstant | binary | like | likeEscape | logical | not
  | case | function | convert | aggregation | rowNumber | subStatement => true
  | _ => false

/-- The names of the columns of an entity, or of the one column of any other value. -/
def Named.columnNames (n : Named) : List String :=
  match n.expression with
  | .entity e | .entityReference _ _ e => e.columns.map fun c => exposedName n.name c.name
  | e => if e.kind.isPending then [] else [n.effectiveName]

namespace Expr

def columnNames : Expr → List String
  | named n => n.columnNames
  | compound members => members.flatMap Named.columnNames
  | entity e => e.columns.map fun c => exposedName e.name c.name
  | entityReference _ name e => e.columns.map fun c => exposedName name c.name
  | column c => [c.name]
  | e => if e.kind.isPending then [] else [Named.defaultName]

/-- Whether all columns of a projection have names, once it is resolved. -/
def isColumned : Expr → Bool
  | named _ | compound _ | tableReference .. | column _ | entity _ | entityReference .. => true
  | _ => false

/-- Whether an expression has all the columns that another one has. -/
structure Keeps (e e' : Expr) : Prop where
  alone : e.columnNames ⊆ e'.columnNames
  named : ∀ name, (Named.mk name e).columnNames ⊆ (Named.mk name e').columnNames
  columned : e.isColumned = true → e'.isColumned = true

theorem Keeps.refl (e : Expr) : e.Keeps e :=
  ⟨List.Subset.refl _, fun _ => List.Subset.refl _, fun h => h⟩

theorem Keeps.trans {e e₁ e' : Expr} (h : e.Keeps e₁) (h' : e₁.Keeps e') : e.Keeps e' :=
  ⟨List.Subset.trans h.alone h'.alone, fun name => List.Subset.trans (h.named name) (h'.named name),
    fun columned => h'.columned (h.columned columned)⟩

theorem Keeps.computed {e e' : Expr} (h : e.kind.isComputed = true)
    (h' : e'.kind.isComputed = true) : e.Keeps e' := by
  have alone {e : Expr} (h : e.kind.isComputed = true) : e.columnNames = [Named.defaultName] := by
    cases e <;> first | rfl | cases h
  have named (name : Option String) {e : Expr} (h : e.kind.isComputed = true) :
      (Named.mk name e).columnNames = [name.getD Named.defaultName] := by
    cases e <;> first | rfl | cases h
  have unnamed : e.isColumned = false := by cases e <;> first | rfl | cases h
  exact ⟨by simp [alone h, alone h'], fun name => by simp [named name h, named name h'],
    by simp [unnamed]⟩

/-- Nothing is known of what is replaced, but that an item is a row. -/
theorem Keeps.pending {e e' : Expr} (h : e.kind.isPending = true) (hn : e.kind ≠ .named)
    (columned : e.kind = .tableReference → e'.isColumned = true) : e.Keeps e' := by
  have alone : e.columnNames = [] := by
    cases e <;> first | rfl | exact absurd rfl hn | cases h
  have named (name : Option String) : (Named.mk name e).columnNames = [] := by
    cases e <;> first | rfl | cases h
  refine ⟨by simp [alone], fun name => by simp [named], fun known => ?_⟩
  by_cases item : e.kind = .tableReference
  · exact columned item
  · have unnamed : e.isColumned = false := by
      cases e <;> first | rfl | exact absurd rfl item | exact absurd rfl hn | cases h
    rw [unnamed] at known
    cases known

theorem RowOf.isColumned {tableAlias : String} {e : Expr} (h : e.RowOf tableAlias) :
    e.isColumned = true := by
  rcases h with h | ⟨members, rfl, -⟩
  · cases h <;> rfl
  · rfl

theorem isComputed_of_isPredicate {e : Expr} (h : e.isPredicate = true) :
    e.kind.isComputed = true := by
  cases e <;> first | rfl | cases h

/-- As a value an expression is left as it is, unless it is a predicate. -/
theorem Keeps.adapted {native : Bool} {e e' : Expr} (h : Expr.adapted native .value e = .ok e') :
    e.Keeps e' := by
  rw [adapted_eq] at h
  obtain rfl := Except.ok.inj h
  cases native with
  | true => exact .refl e
  | false =>
    by_cases predicate : e.isPredicate = true
    · rw [if_neg Bool.false_ne_true, converted, if_pos predicate]
      exact .computed (isComputed_of_isPredicate predicate) rfl
    · rw [if_neg Bool.false_ne_true, converted, if_neg predicate]
      exact .refl e

theorem Keeps.compound {members members' : List Named}
    (labels : members'.map Named.name = members.map Named.name)
    (slots : List.Forall₂ (fun slot slot' => slot.1 = Position.value → Keeps slot.2 slot'.2)
      (members.map fun n => (Position.value, n.expression))
      (members'.map fun n => (Position.value, n.expression))) :
    Keeps (.compound members) (.compound members') := by
  have kept : members.flatMap Named.columnNames ⊆ members'.flatMap Named.columnNames := by
    induction members generalizing members' with
    | nil => simp
    | cons n rest ih =>
      cases members' with
      | nil => cases labels
      | cons n' rest' =>
        obtain ⟨name, e⟩ := n
        obtain ⟨name', e'⟩ := n'
        obtain ⟨label, others⟩ := List.cons.inj labels
        obtain rfl : name' = name := label
        obtain ⟨first, later⟩ := List.forall₂_cons.mp slots
        intro column hc
        rw [List.flatMap_cons, List.mem_append] at hc ⊢
        rcases hc with hc | hc
        · exact .inl ((first rfl).named name' hc)
        · exact .inr (ih others later hc)
  exact ⟨kept, fun _ => List.Subset.refl _, fun _ => rfl⟩

/-- A composite node keeps its kind, and a compound the names of its members. -/
theorem Keeps.composite {e e' : Expr} (composite : e.kind.isComposite = true)
    (kind : e'.kind = e.kind) (labels : e'.labels = e.labels)
    (slots : List.Forall₂ (fun slot slot' => slot.1 = Position.value → Keeps slot.2 slot'.2)
      e.slots e'.slots) : e.Keeps e' := by
  by_cases compound : e.kind = .compound
  · cases e with
    | compound members =>
      cases e' with
      | compound members' => exact .compound labels slots
      | _ => cases kind
    | _ => cases compound
  · have computed : e.kind.isComputed = true := by
      cases e <;> first | rfl | exact absurd rfl compound | exact nomatch composite
    exact .computed computed (kind ▸ computed)

/-- A projection keeps its name. -/
theorem Keeps.renamed {projection root : Expr} (h : projection.unnamed.Keeps root) :
    projection.Keeps (projection.renamed root) := by
  cases projection with
  | named n =>
    obtain ⟨name, e⟩ := n
    exact ⟨h.named name, fun _ => List.Subset.refl _, fun _ => rfl⟩
  | _ => exact h

end Expr

/-- What the rules do to the names of columns. -/
def Keeping : Judgement → Prop
  | .expression rows _ e _ _ e' _ _ => PlainRows rows → (Node.expression e).Ready → e.Keeps e'
  | .fitted rows position e _ _ e' _ _ =>
    PlainRows rows → (Node.expression e).Ready → position = .value → e.Keeps e'
  | .slots rows slots _ _ slots' _ _ =>
    PlainRows rows → (∀ slot ∈ slots, (Node.expression slot.2).Ready) →
      List.Forall₂ (fun slot slot' => slot.1 = Position.value → Expr.Keeps slot.2 slot'.2)
        slots slots'
  | .statement rows s _ s' _ =>
    PlainRows rows → (Node.statement s).Ready → s.projection.Keeps s'.projection
  | _ => True

variable {schema : Schema} {native : Bool}

theorem Resolved.keeps {j : Judgement} (h : Resolved schema native j) : Keeping j := by
  induction h with
  | leaf leaf => exact fun _ _ => .refl _
  | constant mapped =>
    intro _ _
    rcases Schema.constant_eq_ok mapped with ⟨_, _, _, -, rfl⟩ | ⟨-, rfl⟩
    · exact .computed rfl rfl
    · exact .refl _
  | tableReference found =>
    intro plain _
    obtain ⟨tableAlias, row⟩ := plain.of_lookup found
    exact .pending rfl nofun fun _ => row.isColumned
  | member owner mapped again ihOwner ihAgain => exact fun _ _ => .pending rfl nofun nofun
  | navigation followed => exact fun _ _ => .pending rfl nofun nofun
  | binary first second compared leftFits rightFits ihFirst ihSecond =>
    exact fun _ _ => .computed rfl rfl
  | composite composite kind type isPredicate wording labels slots ih =>
    intro plain ready
    exact .composite composite kind labels (ih plain fun _ hs => ready.slot hs)
  | named inner ih =>
    intro _ ready
    exact absurd rfl ready.here.1
  | subStatement inner ih => exact fun _ _ => .computed rfl rfl
  | fitted resolved fits ih =>
    intro plain ready value
    subst value
    exact (ih plain ready).trans (.adapted fits)
  | noSlot => exact fun _ _ => .nil
  | slot first rest ihFirst ihRest =>
    intro plain ready
    obtain ⟨here, others⟩ := List.forall_mem_cons.mp ready
    exact .cons (fun value => ihFirst plain here value) (ihRest plain others)
  | statement sources joins slots projection shape isDistinct condition ihSources ihSlots =>
    intro plain ready
    have nestedReady := fun s hs =>
      ready.child (List.mem_append_right _ (List.mem_map_of_mem (a := s) hs))
    have slotsReady := fun slot hs =>
      ready.child (List.mem_append_left _ (List.mem_map_of_mem (a := slot) hs))
    obtain ⟨plain₁, -⟩ := sources.settles plain nestedReady
    obtain ⟨root, -⟩ := List.forall₂_cons.mp (ihSlots plain₁ slotsReady)
    rw [projection]
    exact (root rfl).renamed
  | _ => trivial

end Comprehension.Sql
