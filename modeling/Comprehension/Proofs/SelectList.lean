import Comprehension.Proofs.LexicalClosure
import Comprehension.Proofs.Scoping

/-!
What a statement in the place of a table exposes, and what it writes. The columns that are addressed
through its alias are items of its select list, but for the two kinds of members that are exposed
under one name and written under others.
-/
namespace Comprehension.Command

open Lexing

/-- Whether an item of a select list has a name: it is a column, or written under the name. -/
inductive Outputs (name : String) : List Piece → Prop where
  | column (owner : String) : Outputs name [.identifier owner, .text ".", .identifier name]
  | renamed (item : List Piece) : Outputs name (item ++ [.text " AS ", .identifier name])

/-- Whether a select list has an item with a name. No parentheses are open between two items. -/
def Selects (name : String) (pieces : List Piece) : Prop :=
  ∃ before item after, pieces = commas (before ++ item :: after) ∧ Outputs name item ∧
    ∀ other ∈ before ++ item :: after, Balanced (fun _ _ => True) other

def address (tableAlias name : String) : List Piece :=
  [.identifier tableAlias, .text ".", .identifier name]

section Addresses

variable {C : String → String → Prop} {a name : String} {pieces : List Piece}

/-- What does not hold a separator stands before it or behind it. -/
theorem infix_of_not_mem {α : Type} {l xs ys : List α} {x : α} (hx : x ∉ l)
    (h : l <:+: xs ++ x :: ys) : l <:+: xs ∨ l <:+: ys := by
  have without {b : List α} (sub : ∀ y ∈ b, y ∈ l) (hb : b <+: x :: ys) : b = [] := by
    cases b with
    | nil => rfl
    | cons y b =>
      obtain rfl := (List.cons_prefix_cons.mp hb).1
      exact absurd (sub y List.mem_cons_self) hx
  rcases List.infix_append_iff.mp h with h | h | ⟨b, c, rfl, hb, hc⟩
  · exact .inl h
  · rcases List.infix_cons_iff.mp h with h | h
    · rw [without (fun _ hy => hy) h]
      exact .inl List.nil_infix
    · exact .inr h
  · rw [without (fun y hy => List.mem_append_right b hy) hc, List.append_nil]
    exact .inl hb.isInfix

theorem Word.read_of_address (h : Word C pieces) (ha : address a name <:+: pieces) :
    name ≠ "*" ∧ C a name := by
  have length := ha.length_le
  cases h with
  | column read =>
    have same := ha.eq_of_length rfl
    unfold address columnPieces at same
    simp only [List.cons.injEq, Piece.identifier.injEq, true_and, and_true] at same
    obtain ⟨rfl, last⟩ := same
    split at last
    · cases last
    · rename_i star
      obtain rfl := Piece.identifier.inj last
      exact ⟨star, read star⟩
  | _ => simp [address] at length

/-- In a phrase, columns are addressed as words. -/
theorem Phrase.read_of_address {i j : Nat} (h : Phrase C i j pieces)
    (ha : address a name <:+: pieces) : name ≠ "*" ∧ C a name := by
  induction h with
  | word first => exact first.read_of_address ha
  | more first separator nested later ih =>
    rename_i text
    have other : Piece.text text ∉ address a name := by
      intro mem
      have dot : text = "." := by simpa [address] using mem
      subst dot
      cases separator
    rcases infix_of_not_mem other ha with ha | ha
    · exact first.read_of_address ha
    · exact ih ha

end Addresses

section Items

theorem commas_cons (first : List Piece) {rest : List (List Piece)} (h : rest ≠ []) :
    commas (first :: rest) = first ++ [Piece.text ", "] ++ commas rest := by
  cases rest with
  | nil => exact absurd rfl h
  | cons second rest => exact commas_cons_cons first second rest

theorem commas_append_first (a b : List Piece) (rest : List (List Piece)) :
    commas ((a ++ b) :: rest) = a ++ commas (b :: rest) := by
  cases rest with
  | nil => simp [commas, List.intercalate]
  | cons second rest => simp [commas_cons_cons]

theorem commas_flatten (before : List (List Piece)) {items : List (List Piece)} (h : items ≠ [])
    (after : List (List Piece)) :
    commas (before ++ commas items :: after) = commas (before ++ (items ++ after)) := by
  induction before with
  | nil =>
    induction items with
    | nil => exact absurd rfl h
    | cons first rest ih =>
      by_cases last : rest = []
      · simp [last, commas, List.intercalate]
      · have more : rest ++ after ≠ [] := by simp [last]
        rw [commas_cons first last, List.nil_append, commas_append_first]
        rw [List.nil_append, List.nil_append] at ih
        rw [ih last, List.nil_append, List.cons_append, commas_cons first more]
  | cons first before ih =>
    rw [List.cons_append, List.cons_append, commas_cons first (by simp), ih,
      commas_cons first (by simp [h])]

variable {name : String} {pieces : List Piece}

theorem Selects.single {item : List Piece} (h : Outputs name item)
    (balanced : Balanced (fun _ _ => True) item) : Selects name item :=
  ⟨[], item, [], by simp [commas, List.intercalate], h, List.forall_mem_singleton.mpr balanced⟩

theorem Selects.commas {items : List (List Piece)} {item : List Piece} (mem : item ∈ items)
    (h : Selects name item) (balanced : ∀ item ∈ items, Balanced (fun _ _ => True) item) :
    Selects name (commas items) := by
  obtain ⟨before, after, rfl⟩ := List.append_of_mem mem
  obtain ⟨before', inner, after', rfl, outputs, balanced'⟩ := h
  refine ⟨before ++ before', inner, after' ++ after, ?_, outputs, fun i hi => ?_⟩
  · rw [commas_flatten before (by simp)]
    simp
  · simp only [List.mem_append, List.mem_cons] at hi balanced balanced'
    rcases hi with (hi | hi) | hi | hi | hi
    · exact balanced i (.inl hi)
    · exact balanced' i (.inl hi)
    · exact balanced' i (.inr (.inl hi))
    · exact balanced' i (.inr (.inr hi))
    · exact balanced i (.inr (.inr hi))

theorem Selects.mem (h : Selects name pieces) : Piece.identifier name ∈ pieces := by
  obtain ⟨before, item, after, rfl, outputs, -⟩ := h
  have own : Piece.identifier name ∈ item := by
    cases outputs with
    | column owner => simp
    | renamed item => simp
  induction before with
  | nil =>
    by_cases last : after = []
    · simpa [last, Command.commas, List.intercalate] using own
    · rw [List.nil_append, commas_cons item last]
      simp [own]
  | cons first before ih =>
    rw [List.cons_append, commas_cons first (by simp)]
    exact List.mem_append_right _ ih

/-- A column of an entity is an item, unless it stands for all columns. -/
theorem selects_entityPieces {tableAlias : String} {e : Sql.Entity}
    {readName writtenName : Option String} {c : Sql.Column} (hc : c ∈ e.columns)
    (single : c.isStar = false) (named : Sql.exposedName writtenName c.name ≠ "*") :
    Selects (Sql.exposedName writtenName c.name)
      (entityPieces tableAlias e readName writtenName) := by
  have outputs : Outputs (Sql.exposedName writtenName c.name)
      (entityColumn tableAlias readName writtenName c) := by
    unfold entityColumn
    rw [single, if_neg Bool.false_ne_true]
    dsimp only
    split
    · rename_i same
      rw [← same, List.append_nil, columnPieces, if_neg named]
      exact .column tableAlias
    · exact .renamed _
  have balanced (c : Sql.Column) :
      Balanced (fun _ _ => True) (entityColumn tableAlias readName writtenName c) :=
    balanced_entityColumn trivial
  refine Selects.commas (List.mem_map_of_mem hc) (.single outputs (balanced c)) fun item hi => ?_
  obtain ⟨c', -, rfl⟩ := List.mem_map.mp hi
  exact balanced c'

end Items

end Comprehension.Command

namespace Comprehension.Sql

open Command
open Outcome (bind_eq_ok pure_eq_ok)

/-- The name that the columns of an entity are exposed under and do not write: a star has no
name. -/
def Entity.slips (e : Entity) (label : Option String) (name : String) : Bool :=
  e.columns.any Column.isStar && name = exposedName label "*"

/-- The names that a member is exposed under and does not write: a compound in a member writes its
own members. -/
def Named.slips (n : Named) (name : String) : Bool :=
  match n.expression with
  | .compound _ => name = n.effectiveName
  | .entity e | .entityReference _ _ e => e.slips n.name name
  | _ => false

/-- The names that a projection is exposed under and does not write. -/
def Expr.slips : Expr → String → Bool
  | .named n, name => n.slips name
  | .compound members, name => members.any (·.slips name)
  | .entity e, name => e.slips e.name name
  | .entityReference _ label e, name => e.slips label name
  | _, _ => false

section Written

variable {native : Bool} {name : String}

theorem selects_of_exposed {tableAlias : String} {e : Entity} {readName writtenName : Option String}
    (hn : name ∈ e.columns.map fun c => exposedName writtenName c.name) (named : name ≠ "*") :
    Selects name (entityPieces tableAlias e readName writtenName) ∨
      e.slips writtenName name = true := by
  obtain ⟨c, hc, rfl⟩ := List.mem_map.mp hn
  cases star : c.isStar with
  | false => exact .inl (selects_entityPieces hc star named)
  | true =>
    have all : c.name = "*" := of_decide_eq_true star
    right
    rw [Entity.slips, Bool.and_eq_true, decide_eq_true_iff, all]
    exact ⟨List.any_eq_true.mpr ⟨c, hc, star⟩, rfl⟩

/-- A member writes the names that it is exposed under, or lets them slip. -/
theorem selects_namedPieces {n : Named} {rendered : Rendered} {item : List Piece}
    (h : namedPieces n.name n.expression rendered = .ok item)
    (balanced : Balanced (fun _ _ => True) item) (hn : name ∈ n.columnNames) (named : name ≠ "*") :
    Selects name item ∨ n.slips name = true := by
  obtain ⟨label, e⟩ := n
  have value {e : Expr} (same : Named.columnNames ⟨label, e⟩ ⊆ [Named.effectiveName ⟨label, e⟩])
      (hn : name ∈ Named.columnNames ⟨label, e⟩)
      (h : (do return (← rendered) ++
        [Piece.text " AS ", .identifier (Named.effectiveName ⟨label, e⟩)] : Rendered) = .ok item) :
      Selects name item := by
    obtain ⟨ps, -, h⟩ := bind_eq_ok.mp h
    obtain rfl := pure_eq_ok.mp h
    obtain rfl := List.mem_singleton.mp (same hn)
    exact .single (.renamed ps) balanced
  cases e with
  | entity e =>
    obtain rfl := Except.ok.inj h
    exact selects_of_exposed hn named
  | entityReference tableAlias other e =>
    obtain rfl := Except.ok.inj h
    exact selects_of_exposed hn named
  | compound members => exact .inr (decide_eq_true (List.mem_singleton.mp hn))
  | tableReference | member | navigation | call | named => cases hn
  | _ => exact .inl (value (List.Subset.refl _) hn h)

theorem exists_of_membersPieces {members : List Named} {items : List (List Piece)}
    (h : membersPieces native .projected members = .ok items) {n : Named} (hn : n ∈ members) :
    ∃ item ∈ items,
      namedPieces n.name n.expression (n.expression.pieces native .projected) = .ok item := by
  induction members generalizing items with
  | nil => cases hn
  | cons first rest ih =>
    obtain ⟨label, e⟩ := first
    simp only [membersPieces, bind_eq_ok, pure_eq_ok] at h
    obtain ⟨p, hp, r, hr, rfl⟩ := h
    rcases List.mem_cons.mp hn with rfl | hn
    · exact ⟨p, List.mem_cons_self, hp⟩
    · obtain ⟨item, mem, written⟩ := ih hr hn
      exact ⟨item, List.mem_cons_of_mem _ mem, written⟩

/-- A select list has the names that its projection is exposed under, but for those that slip. -/
theorem Expr.selects_pieces {root : Node} {e : Expr} {pieces : List Piece}
    (legible : ∀ n, Node.Inside root n → n.Legible fun _ _ => True)
    (inside : Node.Inside root (.expression e)) (h : e.pieces native .projected = .ok pieces)
    (columned : e.isColumned = true) (hn : name ∈ e.columnNames) (named : name ≠ "*") :
    Selects name pieces ∨ e.slips name = true := by
  have balanced := e.balanced_pieces legible .projected pieces inside h
  cases e with
  | named n =>
    obtain ⟨label, e⟩ := n
    exact selects_namedPieces h balanced hn named
  | compound members =>
    simp only [Expr.pieces, bind_eq_ok, pure_eq_ok] at h
    obtain ⟨items, hm, rfl⟩ := h
    have each := balanced_membersPieces legible members .projected items (fun n mem =>
      inside.operand (Expr.member_mem_operands mem)) hm
    obtain ⟨n, mem, hn⟩ := List.mem_flatMap.mp hn
    obtain ⟨item, hi, written⟩ := exists_of_membersPieces hm mem
    rcases selects_namedPieces written (each item hi) hn named with selects | slips
    · exact .inl (.commas hi selects each)
    · exact .inr (List.any_eq_true.mpr ⟨n, mem, slips⟩)
  | entity e =>
    obtain rfl := Except.ok.inj h
    exact selects_of_exposed hn named
  | entityReference tableAlias label e =>
    obtain rfl := Except.ok.inj h
    exact selects_of_exposed hn named
  | column c =>
    obtain rfl := Except.ok.inj h
    obtain rfl := List.mem_singleton.mp hn
    refine .inl (.single ?_ balanced)
    rw [columnPieces, if_neg named]
    exact .column c.owner
  | tableReference => cases h
  | _ => cases columned

end Written

section Shelter

variable {schema : Schema} {native : Bool} {offer : Offer} {n m : Node} {s : Statement}

theorem Node.Mapped.outside_part (h : (Node.statement s).Mapped schema native offer)
    (apart : (Node.statement s).Apart) (hm : m ∈ (Node.statement s).parts) :
    m.unnamed.Within (· ∉ s.aliases) := by
  have leaf (e : Expr) : ∀ a ∈ (Node.expression e).aliases, a ∉ s.aliases := nofun
  rcases h.unnamed_part_cases hm with
    ⟨e, same, -⟩ | child | ⟨value, type, rfl⟩ | ⟨c, -, rfl⟩
  · cases same
  · exact apart.here.2 _ child
  · exact everywhere_of_children_eq_nil leaf rfl
  · exact everywhere_of_children_eq_nil leaf rfl

/-- Whether the aliases in a tree are used once each, and differ from all that are offered around
it. -/
structure Node.Sheltered (offer : Offer) (n : Node) : Prop where
  apart : n.unnamed.Apart
  fresh : n.unnamed.Within fun a => ∀ name, ¬ offer a name

theorem Node.Sheltered.part (h : n.Sheltered offer) (mapped : n.Mapped schema native offer)
    (hm : m ∈ n.parts) : m.Sheltered (offer.below n) := by
  have fresh := mapped.everywhere_part (fun _ _ ha => nomatch ha) h.fresh hm
  refine ⟨mapped.everywhere_part (fun _ => trivial) h.apart hm, ?_⟩
  cases n with
  | expression e => exact fresh
  | statement s =>
    have outside := mapped.outside_part h.apart hm
    refine (fresh.and outside).mono fun n both a ha name offered => ?_
    rcases Offer.under_cases offered with own | around
    · exact both.2 a ha own
    · exact both.1 a ha name around

theorem Node.Sheltered.inside {root : Node} (h : root.Sheltered offer)
    (mapped : root.Mapped schema native offer) (hn : Node.Inside root n) :
    ∃ offer', n.Mapped schema native offer' ∧ n.Sheltered offer' := by
  induction hn with
  | root => exact ⟨offer, mapped, h⟩
  | part inside part ih =>
    obtain ⟨offer', mapped', sheltered⟩ := ih
    exact ⟨_, mapped'.part part, sheltered.part mapped' part⟩

theorem eq_of_nodup_filterMap {α β : Type} {f : α → Option β} {l : List α}
    (h : (l.filterMap f).Nodup) {x y : α} (hx : x ∈ l) (hy : y ∈ l) {b : β} (fx : f x = some b)
    (fy : f y = some b) : x = y := by
  by_contra other
  have apart := List.pairwise_filterMap.mp h
  have : Std.Symm fun x y => ∀ b, f x = some b → ∀ c, f y = some c → b ≠ c :=
    ⟨fun _ _ apart b fx c fy => (apart c fy b fx).symm⟩
  exact apart.forall hx hy other b fx b fy rfl

theorem Source.offers_of_nodup {table : Table} {q name : String} {inner : Statement}
    (nodup : s.aliases.Nodup) (ht : table ∈ s.tables) (hs : table.source = .statement q inner)
    (h : offer.under s.tables q name) :
    name ∈ inner.projection.columnNames ∨ offer q name := by
  refine h.imp_left fun ⟨source, mem, offers⟩ => ?_
  have named := Source.alias_of_offers offers
  obtain ⟨sources, -, disjoint⟩ := List.nodup_append.mp nodup
  have own : table.source.tableAlias? = some q := by
    rw [hs]
    rfl
  rcases List.mem_append.mp mem with mem | mem
  · obtain ⟨table', ht', rfl⟩ := List.mem_map.mp mem
    obtain rfl := eq_of_nodup_filterMap sources ht ht' own named
    rw [hs] at offers
    exact offers.2
  · obtain ⟨link, hl, linked⟩ := List.mem_filterMap.mp mem
    have joined : q ∈ (tableLinks s.tables).filterMap Link.tableAlias? := by
      refine List.mem_filterMap.mpr ⟨link, hl, ?_⟩
      cases link with
      | unresolved origin member => cases linked
      | resolved source' leftKey rightKey =>
        obtain rfl := Option.some.inj linked
        exact named
    exact absurd rfl (disjoint q (List.mem_filterMap.mpr ⟨table, ht, own⟩) q joined)

/-- All that a statement addresses through the alias of a source, at any depth, is exposed by the
source. -/
theorem Node.Sheltered.reads_source {table : Table} {q : String} {inner : Statement}
    (h : (Node.statement s).Sheltered offer) (mapped : (Node.statement s).Mapped schema native offer)
    (ht : table ∈ s.tables) (hs : table.source = .statement q inner)
    (hn : Node.Inside (.statement s) n) :
    n = .statement s ∨ ∃ offer', n.Mapped schema native offer' ∧ n.unnamed.Within (· ≠ q) ∧
      ∀ name, offer' q name → name ∈ inner.projection.columnNames := by
  have own : q ∈ s.aliases := by
    refine List.mem_append_left _ (List.mem_filterMap.mpr ⟨table, ht, ?_⟩)
    rw [hs]
    rfl
  induction hn with
  | root => exact .inl rfl
  | part inside part ih =>
    right
    rcases ih with rfl | ⟨offer', mapped', other, exposed⟩
    · refine ⟨_, mapped.part part, ?_, fun name offered => ?_⟩
      · refine (mapped.outside_part h.apart part).mono fun a ha same => ?_
        subst same
        exact ha own
      · rcases Source.offers_of_nodup h.apart.here.1 ht hs offered with exposed | around
        · exact exposed
        · exact absurd around (h.fresh.here q own name)
    · refine ⟨_, mapped'.part part, mapped'.everywhere_part (fun _ _ ha => nomatch ha) other part,
        fun name offered => ?_⟩
      rename_i n m
      cases n with
      | expression e => exact exposed name offered
      | statement t =>
        rcases Offer.under_cases offered with inner | around
        · exact absurd rfl (other.here q inner)
        · exact exposed name around

/-- What a statement is written as addresses only columns that its source exposes. -/
theorem Statement.exposed_of_address {table : Table} {q name : String} {inner : Statement}
    (sheltered : (Node.statement s).Sheltered offer)
    (mapped : (Node.statement s).Mapped schema native offer) (ht : table ∈ s.tables)
    (hs : table.source = .statement q inner) {nested : Bool} {pieces : List Piece}
    (hp : s.pieces native nested = .ok pieces) (ha : address q name <:+: pieces) :
    name ≠ "*" ∧ name ∈ inner.projection.columnNames := by
  have legible (n : Node) (inside : Node.Inside (.statement s) n) :
      n.Legible fun a name => a = q → name ∈ inner.projection.columnNames := by
    rcases sheltered.reads_source mapped ht hs inside with rfl | ⟨offer', here, -, exposed⟩
    · trivial
    · refine here.legible fun a name offered same => ?_
      subst same
      exact exposed name offered
  obtain ⟨star, exposed⟩ := (s.balanced_pieces legible nested pieces .root hp 0).read_of_address ha
  exact ⟨star, exposed rfl⟩

theorem Statement.exists_of_pieces {nested : Bool} {pieces : List Piece}
    (h : s.pieces native nested = .ok pieces) :
    (∃ list, s.projection.pieces native .projected = .ok list) ∧
      ∃ items, tablesPieces native s.tables = .ok items := by
  obtain ⟨projection, tables, condition, grouping, orderings, top, isDistinct, rowNumber, rowOffset,
    shape⟩ := s
  simp only [Statement.pieces, bind_eq_ok] at h
  obtain ⟨-, -, list, projected, items, joined, -⟩ := h
  exact ⟨⟨list, projected⟩, items, joined⟩

theorem exists_of_tablesPieces {tables : List Table} {items : List (JoinKind × Source × List Piece)}
    (h : tablesPieces native tables = .ok items) {table : Table} (ht : table ∈ tables) :
    ∃ pieces, table.source.pieces native = .ok pieces := by
  induction tables generalizing items with
  | nil => cases ht
  | cons first rest ih =>
    obtain ⟨key, source, kind, joins⟩ := first
    simp only [tablesPieces, bind_eq_ok] at h
    obtain ⟨p, hp, j, -, r, hr, -⟩ := h
    rcases List.mem_cons.mp ht with rfl | ht
    · exact ⟨p, hp⟩
    · exact ih hr ht

/-- Where a statement is written, so are the select lists of its sources. -/
theorem Statement.exists_selectList {table : Table} {q : String} {inner : Statement} {nested : Bool}
    {pieces : List Piece} (h : s.pieces native nested = .ok pieces) (ht : table ∈ s.tables)
    (hs : table.source = .statement q inner) :
    ∃ list, inner.projection.pieces native .projected = .ok list := by
  obtain ⟨items, joined⟩ := (exists_of_pieces h).2
  obtain ⟨source, written⟩ := exists_of_tablesPieces joined ht
  rw [hs] at written
  simp only [Source.pieces, bind_eq_ok] at written
  obtain ⟨pieces, written, -⟩ := written
  exact (exists_of_pieces written).1

end Shelter

end Comprehension.Sql

namespace Comprehension.Query.Model

open Command
open Method.Registry (defaults)
open Sql (Node Statement Table)

variable {schema : Schema} {options : Options} {m : Model} {s : Statement} {f₀ f : Fresh}

theorem sheltered_of_statement
    (h : m.statement defaults (Mapping.ofSchema schema) options f₀ = .ok (s, f)) :
    (Node.statement s).Sheltered fun _ _ => False := by
  obtain ⟨t, f₁, ground, resolved⟩ := prepares_of_statement h
  have ready := (ground.prepared _ List.mem_cons_self).ready_of_prepared
  have apart := Statement.apart_of_resolve ready (ground.apart _ List.mem_cons_self)
    (ground.issued _ List.mem_cons_self) resolved
  exact ⟨apart, apart.mono fun _ _ _ _ _ offered => offered⟩

/-- Every column that a compiled statement addresses through the alias of a source is an item of
the select list that is written for the source, unless it is exposed under a name that the source
lets slip. -/
theorem address_selected
    (h : m.statement defaults (Mapping.ofSchema schema) options f₀ = .ok (s, f))
    {outer inner : Statement} (inside : Node.Inside (.statement s) (.statement outer))
    {table : Table} (ht : table ∈ outer.tables) {q : String}
    (hs : table.source = .statement q inner) {nested : Bool} {pieces : List Piece}
    (hp : outer.pieces options.nativeBoolean nested = .ok pieces) {name : String}
    (ha : address q name <:+: pieces) :
    ∃ list, inner.projection.pieces options.nativeBoolean .projected = .ok list ∧
      (Selects name list ∨ inner.projection.slips name = true) := by
  have mapped := mapped_of_statement h
  have legible (n : Node) (inside : Node.Inside (.statement s) n) : n.Legible fun _ _ => True := by
    obtain ⟨offer, here⟩ := mapped.inside inside
    exact here.legible fun _ _ _ => trivial
  obtain ⟨offer, outerMapped, sheltered⟩ := (sheltered_of_statement h).inside mapped inside
  obtain ⟨star, exposed⟩ := Statement.exposed_of_address sheltered outerMapped ht hs hp ha
  have nested : table.source.statement? = some inner := by
    rw [hs]
    rfl
  have columned : inner.projection.isColumned = true := by
    cases outerMapped.served with
    | statement links columned slots sources =>
      exact columned inner (List.mem_filterMap.mpr ⟨table, ht, nested⟩)
  obtain ⟨list, written⟩ := Statement.exists_selectList hp ht hs
  exact ⟨list, written, Sql.Expr.selects_pieces legible (inside.source ht nested).projection written
    columned exposed star⟩

/-- The sources of a statement that are statements: their aliases and select lists. -/
def selectLists (native : Bool) (s : Statement) : List (String × Statement × List Piece) :=
  s.tables.filterMap fun table =>
    match table.source with
    | .statement q inner =>
      (inner.projection.pieces native .projected).toOption.map (q, inner, ·)
    | _ => none

theorem source_of_mem_selectLists {native : Bool} {q : String} {inner : Statement}
    {list : List Piece} (h : (q, inner, list) ∈ selectLists native s) :
    ∃ table ∈ s.tables, table.source = .statement q inner ∧
      inner.projection.pieces native .projected = .ok list := by
  obtain ⟨table, ht, h⟩ := List.mem_filterMap.mp h
  split at h
  · rename_i origin
    obtain ⟨list', written, same⟩ := Option.map_eq_some_iff.mp h
    cases same
    refine ⟨table, ht, origin, ?_⟩
    cases outcome : inner.projection.pieces native .projected with
    | error e =>
      rw [outcome] at written
      cases written
    | ok pieces =>
      rw [outcome] at written
      exact congrArg Except.ok (Option.some.inj written)
  · cases h

def laterCooks : Model :=
  { main := .table "c" "Cook"
    clauses := []
    yield := .select (.item "c" (.entity "Cook"))
    operators := [.skip (.constant (.int 1) .int32)] }

theorem laterCooks_selected :
    ∃ s f table inner pieces list,
      laterCooks.statement defaults (Mapping.ofSchema .restaurant) {} {} = .ok (s, f) ∧
      table ∈ s.tables ∧ table.source = .statement "q0" inner ∧
      s.pieces false false = .ok pieces ∧ address "q0" "value_FirstName" <:+: pieces ∧
      inner.projection.pieces false .projected = .ok list ∧ Selects "value_FirstName" list := by
  have addressed : (laterCooks.statement defaults (Mapping.ofSchema .restaurant) {}
      {}).toOption.any (fun result =>
        (result.1.pieces false false).toOption.any (address "q0" "value_FirstName" <:+: ·) &&
        (selectLists false result.1).any fun entry =>
          entry.1 = "q0" && !entry.2.1.projection.slips "value_FirstName") = true := by
    decide +kernel
  obtain ⟨⟨s, f⟩, compiled, addressed⟩ := Outcome.exists_of_any addressed
  rw [Bool.and_eq_true] at addressed
  obtain ⟨pieces, written, found⟩ := Outcome.exists_of_any addressed.1
  obtain ⟨⟨q, inner, list⟩, mem, check⟩ := List.any_eq_true.mp addressed.2
  rw [Bool.and_eq_true, decide_eq_true_iff, Bool.not_eq_true'] at check
  obtain ⟨rfl, kept⟩ := check
  obtain ⟨table, ht, hs, listed⟩ := source_of_mem_selectLists mem
  have found := of_decide_eq_true found
  obtain ⟨list', listed', selects⟩ := address_selected compiled .root ht hs written found
  obtain rfl := Except.ok.inj (listed.symm.trans listed')
  refine ⟨s, f, table, inner, pieces, list, compiled, ht, hs, written, found, listed, ?_⟩
  exact selects.resolve_right (by rw [kept]; exact Bool.false_ne_true)

/-- The names and keys of the cooks after the first. -/
def laterPairs : Model :=
  let cook : Expr := .item "c" (.entity "Cook")
  { main := .table "c" "Cook"
    clauses := []
    yield := .select
      (.record [("A", .member cook "FirstName" .string), ("B", .member cook "ID" .int32)])
    operators := [.skip (.constant (.int 1) .int32)] }

/-- The record that is skipped over is read under the name of its member, and written under the
names of its own members. -/
theorem laterPairs_unselected :
    ∃ s f table inner pieces list,
      laterPairs.statement defaults (Mapping.ofSchema .restaurant) {} {} = .ok (s, f) ∧
      table ∈ s.tables ∧ table.source = .statement "q0" inner ∧
      s.pieces false false = .ok pieces ∧ address "q0" "value" <:+: pieces ∧
      inner.projection.pieces false .projected = .ok list ∧ ¬ Selects "value" list := by
  have addressed : (laterPairs.statement defaults (Mapping.ofSchema .restaurant) {}
      {}).toOption.any (fun result =>
        (result.1.pieces false false).toOption.any (address "q0" "value" <:+: ·) &&
        (selectLists false result.1).any fun entry =>
          entry.1 = "q0" && Piece.identifier "value" ∉ entry.2.2) = true := by
    decide +kernel
  obtain ⟨⟨s, f⟩, compiled, addressed⟩ := Outcome.exists_of_any addressed
  rw [Bool.and_eq_true] at addressed
  obtain ⟨pieces, written, found⟩ := Outcome.exists_of_any addressed.1
  obtain ⟨⟨q, inner, list⟩, mem, check⟩ := List.any_eq_true.mp addressed.2
  rw [Bool.and_eq_true, decide_eq_true_iff, decide_eq_true_iff] at check
  obtain ⟨rfl, missing⟩ := check
  obtain ⟨table, ht, hs, listed⟩ := source_of_mem_selectLists mem
  exact ⟨s, f, table, inner, pieces, list, compiled, ht, hs, written, of_decide_eq_true found,
    listed, fun selects => missing selects.mem⟩

end Comprehension.Query.Model
