import Comprehension.Proofs.OrderKeeping
import Mathlib.Data.List.Sort

/-!
Clauses that sort after others have sorted. A stable sort is determined by what it leaves in order:
the rows themselves, and those that it does not tell apart. So sorting the rows clause by clause
comes to one sort by the orderings of the statement, in which later clauses stand first.
-/
namespace Comprehension

open Method (Registry)

namespace Sorting

variable {α : Type*}

/-- Whether any two rows can be compared, and comparisons can be chained. -/
structure TotalPreorder (le : α → α → Bool) : Prop where
  total : ∀ a b, le a b = true ∨ le b a = true
  trans : ∀ a b c, le a b = true → le b c = true → le a c = true

/-- By one order, and by another one where the first does not tell. -/
def thenBy (le le' : α → α → Bool) (a b : α) : Bool := le a b && (!le b a || le' a b)

/-- Whether an order does not tell two rows apart. -/
def tied (le : α → α → Bool) (a b : α) : Bool := le a b && le b a

theorem thenBy_assoc (le le' le'' : α → α → Bool) :
    thenBy (thenBy le le') le'' = thenBy le (thenBy le' le'') := by
  funext a b
  simp only [thenBy]
  cases le a b <;> cases le b a <;> simp

theorem tied_thenBy (le le' : α → α → Bool) (a b : α) :
    tied (thenBy le le') a b = (tied le a b && tied le' a b) := by
  simp only [tied, thenBy]
  cases le a b <;> cases le b a <;> simp

namespace TotalPreorder

variable {le le' : α → α → Bool}

theorem refl (h : TotalPreorder le) (a : α) : le a a = true := (h.total a a).elim id id

theorem flip (h : TotalPreorder le) : TotalPreorder fun a b => le b a where
  total a b := h.total b a
  trans a b c ab bc := h.trans c b a bc ab

theorem thenBy (h : TotalPreorder le) (h' : TotalPreorder le') :
    TotalPreorder (Sorting.thenBy le le') where
  total a b := by
    have := h.total a b
    have := h'.total a b
    simp only [Sorting.thenBy]
    grind
  trans a b c ab bc := by
    simp only [Sorting.thenBy, Bool.and_eq_true, Bool.or_eq_true, Bool.not_eq_true'] at ab bc ⊢
    obtain ⟨ab, ab'⟩ := ab
    obtain ⟨bc, bc'⟩ := bc
    refine ⟨h.trans a b c ab bc, ?_⟩
    by_cases ca : le c a = true
    · -- All three are tied, so the second order decides.
      have ba := h.trans b c a bc ca
      have cb := h.trans c a b ca ab
      rw [ba] at ab'
      rw [cb] at bc'
      exact .inr (h'.trans a b c (ab'.resolve_left Bool.noConfusion)
        (bc'.resolve_left Bool.noConfusion))
    · exact .inl (Bool.eq_false_of_not_eq_true ca)

end TotalPreorder

/-- Whether rows are others in order, with those that are tied as they were. -/
structure StablySorted (le : α → α → Bool) (rows sorted : List α) : Prop where
  perm : sorted.Perm rows
  ordered : sorted.Pairwise fun a b => le a b = true
  ties : ∀ a, sorted.filter (tied le a) = rows.filter (tied le a)

namespace StablySorted

variable {le le' : α → α → Bool} {rows sorted sorted' : List α}

theorem insertionSort (h : TotalPreorder le) (rows : List α) :
    StablySorted le rows (rows.insertionSort fun a b => le a b = true) := by
  let r (a b : α) : Prop := le a b = true
  have : Std.Total r := ⟨h.total⟩
  have : IsTrans α r := ⟨h.trans⟩
  have perm := List.perm_insertionSort r rows
  refine ⟨perm, List.pairwise_insertionSort r rows, fun a => ?_⟩
  have among : (rows.filter (tied le a)).Pairwise r := by
    refine List.pairwise_iff_forall_sublist.mpr fun {b c} inside => ?_
    have hb := inside.subset (List.mem_cons_self ..)
    have hc := inside.subset (List.mem_cons_of_mem _ (List.mem_cons_self ..))
    simp only [List.mem_filter, tied, Bool.and_eq_true] at hb hc
    exact h.trans b a c hb.2.2 hc.2.1
  have kept : (rows.filter (tied le a)).Sublist ((rows.insertionSort r).filter (tied le a)) := by
    simpa using (List.sublist_insertionSort among List.filter_sublist).filter (tied le a)
  exact (kept.eq_of_length (perm.filter _).length_eq.symm).symm

/-- Rows in order are determined by the rows that are tied. -/
theorem eq_of_filter_eq (h : TotalPreorder le) {xs ys : List α}
    (hx : xs.Pairwise fun a b => le a b = true) (hy : ys.Pairwise fun a b => le a b = true)
    (perm : xs.Perm ys) (same : ∀ a, xs.filter (tied le a) = ys.filter (tied le a)) : xs = ys := by
  induction xs generalizing ys with
  | nil => exact perm.nil_eq
  | cons x xs ih =>
    cases ys with
    | nil => exact absurd perm.length_eq (Nat.succ_ne_zero _)
    | cons y ys =>
      obtain ⟨leastX, laterX⟩ := List.pairwise_cons.mp hx
      obtain ⟨leastY, laterY⟩ := List.pairwise_cons.mp hy
      have least {z : α} {zs : List α} (first : ∀ b ∈ zs, le z b = true) {b : α}
          (mem : b ∈ z :: zs) : le z b = true := by
        rcases List.mem_cons.mp mem with rfl | mem
        · exact h.refl b
        · exact first b mem
      have xy : le x y = true := least leastX (perm.mem_iff.mpr (List.mem_cons_self ..))
      have yx : le y x = true := least leastY (perm.mem_iff.mp (List.mem_cons_self ..))
      -- Both first rows lead the rows that are tied with them.
      obtain rfl : x = y := by
        have lead := same x
        simp only [List.filter_cons, tied, h.refl x, xy, yx, Bool.and_self, if_true] at lead
        exact (List.cons.inj lead).1
      refine congrArg (x :: ·) (ih laterX laterY perm.cons_inv fun a => ?_)
      have later := same a
      rw [List.filter_cons, List.filter_cons] at later
      split at later
      · exact (List.cons.inj later).2
      · exact later

/-- There is only one way to sort stably. -/
theorem unique (h : TotalPreorder le) (hs : StablySorted le rows sorted)
    (hs' : StablySorted le rows sorted') : sorted = sorted' := by
  have same (a : α) : sorted.filter (tied le a) = sorted'.filter (tied le a) :=
    (hs.ties a).trans (hs'.ties a).symm
  exact eq_of_filter_eq h hs.ordered hs'.ordered (hs.perm.trans hs'.perm.symm) same

/-- Sorted by one order and then by another one, rows are sorted by the second order, and by the
first one where the second does not tell. -/
theorem again (h : TotalPreorder le') (first : StablySorted le rows sorted)
    (second : StablySorted le' sorted sorted') : StablySorted (thenBy le' le) rows sorted' := by
  refine ⟨second.perm.trans first.perm, ?_, fun a => ?_⟩
  · refine List.pairwise_iff_forall_sublist.mpr fun {a b} inside => ?_
    have ab : le' a b = true := List.pairwise_iff_forall_sublist.mp second.ordered inside
    have aa := h.refl a
    by_cases ba : le' b a = true
    · -- Rows that the second sort does not tell apart stand as the first one left them.
      have inClass := inside.filter (tied le' a)
      rw [second.ties, List.filter_cons_of_pos (by simp [tied, aa]),
        List.filter_cons_of_pos (by simp [tied, ab, ba]), List.filter_nil] at inClass
      have before := inClass.trans List.filter_sublist
      have kept := List.pairwise_iff_forall_sublist.mp first.ordered before
      simp [thenBy, ab, kept]
    · simp [thenBy, ab, ba]
  · have split (xs : List α) : xs.filter (tied (thenBy le' le) a) =
        (xs.filter (tied le' a)).filter (tied le a) := by
      rw [List.filter_filter]
      exact List.filter_congr fun b _ => (tied_thenBy le' le a b).trans (Bool.and_comm ..)
    calc sorted'.filter (tied (thenBy le' le) a)
        = (sorted'.filter (tied le' a)).filter (tied le a) := split sorted'
      _ = (sorted.filter (tied le' a)).filter (tied le a) := by rw [second.ties]
      _ = (sorted.filter (tied le a)).filter (tied le' a) := List.filter_comm ..
      _ = (rows.filter (tied le a)).filter (tied le' a) := by rw [first.ties]
      _ = (rows.filter (tied le' a)).filter (tied le a) := List.filter_comm ..
      _ = rows.filter (tied (thenBy le' le) a) := (split rows).symm

end StablySorted

end Sorting

namespace Sql

open Sorting (TotalPreorder thenBy StablySorted)

section Orders

variable {Row : Type*} (le : Expr → Row → Row → Bool)

/-- The order of rows by one key, given the order by each key. -/
def Ordering.precedes (o : Ordering) (a b : Row) : Bool :=
  match o.direction with
  | .asc => le o.expression a b
  | .desc => le o.expression b a

/-- The order of rows by some keys: by the first one, and by the others where it does not tell. -/
def precedes : List Ordering → Row → Row → Bool
  | [] => fun _ _ => true
  | o :: rest => thenBy (o.precedes le) (precedes rest)

/-- Rows sorted by some keys. Rows that have the same keys stay as they are. -/
def sortedBy (orderings : List Ordering) (rows : List Row) : List Row :=
  rows.insertionSort fun a b => precedes le orderings a b = true

variable {le}

theorem precedes_append (orderings later : List Ordering) :
    precedes le (orderings ++ later) = thenBy (precedes le orderings) (precedes le later) := by
  induction orderings with
  | nil =>
    funext a b
    simp [precedes, thenBy]
  | cons o rest ih => rw [List.cons_append, precedes, ih, precedes, Sorting.thenBy_assoc]

theorem totalPreorder_precedes {orderings : List Ordering}
    (h : ∀ o ∈ orderings, TotalPreorder (le o.expression)) :
    TotalPreorder (precedes le orderings) := by
  induction orderings with
  | nil => exact ⟨fun _ _ => .inl rfl, fun _ _ _ _ _ => rfl⟩
  | cons o rest ih =>
    obtain ⟨first, others⟩ := List.forall_mem_cons.mp h
    refine TotalPreorder.thenBy ?_ (ih others)
    obtain ⟨expression, direction⟩ := o
    cases direction with
    | asc => exact first
    | desc => exact first.flip

theorem stablySorted_sortedBy {orderings : List Ordering}
    (h : ∀ o ∈ orderings, TotalPreorder (le o.expression)) (rows : List Row) :
    StablySorted (precedes le orderings) rows (sortedBy le orderings rows) :=
  .insertionSort (totalPreorder_precedes h) rows

/-- Sorting by one list of keys after the other is one sort, in which later lists stand first. -/
theorem stablySorted_foldl (sortings : List (List Ordering)) {earlier : List Ordering}
    {rows sorted : List Row}
    (h : ∀ sorting ∈ sortings, ∀ o ∈ sorting, TotalPreorder (le o.expression))
    (stable : StablySorted (precedes le earlier) rows sorted) :
    StablySorted (precedes le (sortings.reverse.flatten ++ earlier)) rows
      (sortings.foldl (fun rows sorting => sortedBy le sorting rows) sorted) := by
  induction sortings generalizing earlier sorted with
  | nil => exact stable
  | cons sorting rest ih =>
    obtain ⟨first, others⟩ := List.forall_mem_cons.mp h
    have next :
        StablySorted (precedes le (sorting ++ earlier)) rows (sortedBy le sorting sorted) := by
      rw [precedes_append]
      exact stable.again (totalPreorder_precedes first) (stablySorted_sortedBy first sorted)
    simpa using ih others next

theorem foldl_sortedBy {sortings : List (List Ordering)}
    (h : ∀ o ∈ sortings.reverse.flatten, TotalPreorder (le o.expression)) (rows : List Row) :
    sortings.foldl (fun rows sorting => sortedBy le sorting rows) rows =
      sortedBy le sortings.reverse.flatten rows := by
  have each : ∀ sorting ∈ sortings, ∀ o ∈ sorting, TotalPreorder (le o.expression) :=
    fun sorting mem o inside =>
      h o (List.mem_flatten.mpr ⟨sorting, List.mem_reverse.mpr mem, inside⟩)
  have unsorted : StablySorted (precedes le []) rows rows :=
    ⟨.refl rows, List.pairwise_of_forall fun _ _ => rfl, fun _ => rfl⟩
  have inTurn := stablySorted_foldl sortings each unsorted
  rw [List.append_nil] at inTurn
  exact inTurn.unique (totalPreorder_precedes h) (stablySorted_sortedBy h rows)

end Orders

end Sql

namespace Query

open Supply (freshKey) in
/-- What clauses sort by, one list of keys for each clause that sorts. A key is the expression of
its ordering, prepared in the scope in which the clause is written. -/
inductive SortBy (registry : Registry) :
    Scope → List Clause → Fresh → List (List Sql.Ordering) → Fresh → Prop where
  | nil {scope f} : SortBy registry scope [] f [] f
  | source {scope key rows rest f f₁ f₂ sortings f'} {source : Source}
      (drawn : freshKey f = .ok (key, f₁))
      (read : prepareRows registry scope source.itemName source.source f₁ = .ok (rows, f₂))
      (later : SortBy registry ((source.itemName, .tableReference key rows.rowType) :: scope) rest
        f₂ sortings f') :
      SortBy registry scope (.source source :: rest) f sortings f'
  | filter {scope predicate condition rest f f₁ sortings f'}
      (prepared : predicate.prepare registry scope f = .ok (condition, f₁))
      (later : SortBy registry scope rest f₁ sortings f') :
      SortBy registry scope (.filter predicate :: rest) f sortings f'
  | bind {scope name e e' rest f f₁ sortings f'}
      (prepared : e.prepare registry scope f = .ok (e', f₁))
      (later : SortBy registry ((name, e') :: scope) rest f₁ sortings f') :
      SortBy registry scope (.bind name e :: rest) f sortings f'
  | keyless {scope rest f sortings f'} (later : SortBy registry scope rest f sortings f') :
      SortBy registry scope (.orderBy [] :: rest) f ([] :: sortings) f'
  | key {scope e orderings sorting rest f f₁ sortings f'} {o : Ordering}
      (prepared : o.expression.prepare registry scope f = .ok (e, f₁))
      (others : SortBy registry scope (.orderBy orderings :: rest) f₁ (sorting :: sortings) f') :
      SortBy registry scope (.orderBy (o :: orderings) :: rest) f
        ((⟨e, o.direction⟩ :: sorting) :: sortings) f'

section Clauses

variable {registry : Registry} {scope scope' : Scope} {body body' : Body} {f f' : Fresh}

/-- The keys of a clause come before those of the clauses behind it. -/
theorem SortBy.orderBy {orderings : List Ordering} {sorting : List Sql.Ordering}
    {rest : List Clause} {sortings : List (List Sql.Ordering)} {f₁ : Fresh}
    (h : prepareOrderings registry scope orderings f = .ok (sorting, f₁))
    (later : SortBy registry scope rest f₁ sortings f') :
    SortBy registry scope (.orderBy orderings :: rest) f (sorting :: sortings) f' := by
  induction orderings generalizing sorting f with
  | nil =>
    obtain ⟨rfl, rfl⟩ := Supply.pure_eq_ok.mp h
    exact .keyless later
  | cons ordering orderings ih =>
    obtain ⟨e, f₂, others, prepared, following, rfl⟩ := prepareOrderings_cons_eq_ok h
    exact .key prepared (ih following)

/-- A clause that sorts puts its keys in front, and no other one changes the orderings. -/
theorem Clause.orderings_cases {clause : Clause} {f₁ : Fresh} {rest : List Clause}
    {sortings : List (List Sql.Ordering)}
    (h : clause.prepare registry scope body f = .ok ((scope', body'), f₁))
    (later : SortBy registry scope' rest f₁ sortings f') :
    ∃ sortings', SortBy registry scope (clause :: rest) f sortings' f' ∧
      sortings'.reverse.flatten ++ body.orderings =
        sortings.reverse.flatten ++ body'.orderings := by
  cases clause with
  | source source =>
    rw [Clause.prepare] at h
    obtain ⟨key, f₂, rows, drawn, read, rfl, rfl⟩ := Source.prepare_eq_ok h
    exact ⟨sortings, .source drawn read later, rfl⟩
  | filter predicate =>
    obtain ⟨condition, prepared, rfl, rfl⟩ := prepare_filter_eq_ok h
    exact ⟨sortings, .filter prepared later, rfl⟩
  | orderBy orderings =>
    obtain ⟨sorting, prepared, rfl, rfl⟩ := prepare_orderBy_eq_ok h
    exact ⟨sorting :: sortings, .orderBy prepared later, by simp⟩
  | bind name e =>
    obtain ⟨e', prepared, rfl, rfl⟩ := prepare_bind_eq_ok h
    exact ⟨sortings, .bind prepared later, rfl⟩
  | keyJoin | groupJoin =>
    exact (Supply.throw_ne_ok.mp h).elim

theorem prepareClauses_sortBy {clauses : List Clause}
    (h : prepareClauses registry scope body clauses f = .ok ((scope', body'), f')) :
    ∃ sortings, SortBy registry scope clauses f sortings f' ∧
      body'.orderings = sortings.reverse.flatten ++ body.orderings := by
  induction clauses generalizing scope body f with
  | nil =>
    obtain ⟨result, rfl⟩ := Supply.pure_eq_ok.mp h
    cases result
    exact ⟨[], .nil, rfl⟩
  | cons clause rest ih =>
    obtain ⟨⟨scope₁, body₁⟩, f₁, first, h⟩ := Supply.bind_eq_ok.mp h
    obtain ⟨sortings, later, whole⟩ := ih h
    obtain ⟨sortings', sorts, same⟩ := Clause.orderings_cases first later
    exact ⟨sortings', sorts, whole.trans same.symm⟩

end Clauses

namespace Model

variable {registry : Registry} {scope : Scope} {m : Model} {s : Sql.Statement} {f f' : Fresh}

universe u

/-- Each clause that sorts does so anew: sorting rows by one clause after the other, each time by
the keys and directions of the clause, gives what one sort by the orderings of the statement gives.
Rows that are not told apart keep their order in all these sorts. -/
theorem clauses_sort_in_turn (prepared : m.prepareIn registry scope f = .ok (s, f'))
    (whole : m.operators = []) :
    ∃ sortings f₁, SortBy registry scope (.source m.main :: m.clauses) f sortings f₁ ∧
      ∀ (Row : Type u) (le : Sql.Expr → Row → Row → Bool),
        (∀ o ∈ s.orderings, Sorting.TotalPreorder (le o.expression)) → ∀ rows,
          sortings.foldl (fun rows sorting => Sql.sortedBy le sorting rows) rows =
            Sql.sortedBy le s.orderings rows ∧
          Sorting.StablySorted (Sql.precedes le s.orderings) rows
            (Sql.sortedBy le s.orderings rows) := by
  obtain ⟨scope', body, f₁, t, f₂, drawn, yielded, applied⟩ := prepareIn_eq_ok prepared
  have clauses : prepareClauses registry scope ⟨[], none, []⟩ (.source m.main :: m.clauses) f =
      .ok ((scope', body), f₁) := drawn
  obtain ⟨sortings, sorts, orderings⟩ := prepareClauses_sortBy clauses
  have ordered : s.orderings = sortings.reverse.flatten := by
    rw [whole, prepareOperators] at applied
    obtain ⟨rfl, -⟩ := Supply.pure_eq_ok.mp applied
    rw [(Yield.untouched yielded).orderings, orderings, List.append_nil]
  refine ⟨sortings, f₁, sorts, fun Row le orders rows => ?_⟩
  have inTurn := Sql.foldl_sortedBy (ordered ▸ orders) rows
  rw [← ordered] at inTurn
  exact ⟨inTurn, Sql.stablySorted_sortedBy orders rows⟩

/-- Adult cooks with all spices, by their names and, among namesakes, from the oldest on, and after
that by their kitchens, from the last one on. -/
def cooksByKitchen : Model :=
  let cook : Expr := .item "c" (.entity "Cook")
  let age : Expr := .member cook "Age" .int32
  { main := .table "c" "Cook"
    clauses :=
      [.orderBy [⟨.member cook "FirstName" .string, .asc⟩, ⟨age, .desc⟩],
       .bind "k" (.member cook "KitchenID" .int32),
       .filter (.binary .greaterThan age (.constant (.int 17) .int32) .boolean),
       .source (.table "s" "Spice"),
       .orderBy [⟨.item "k" .int32, .desc⟩]]
    yield := .select cook
    operators := [] }

/-- What a key reads from a name, an age and a kitchen. -/
def cookKey : Sql.Expr → Nat × Nat × Nat → Nat
  | .member _ "FirstName" _, cook => cook.1
  | .member _ "Age" _, cook => cook.2.1
  | _, cook => cook.2.2

def compareCooks (key : Sql.Expr) (a b : Nat × Nat × Nat) : Bool := cookKey key a ≤ cookKey key b

theorem cooksByKitchen_sorted :
    ∃ s f sortings f₁, cooksByKitchen.prepareIn .defaults [] {} = .ok (s, f) ∧
      SortBy .defaults [] (.source cooksByKitchen.main :: cooksByKitchen.clauses) {} sortings f₁ ∧
      let rows := [(2, 30, 1), (1, 20, 7), (2, 40, 1), (1, 50, 7), (1, 20, 1)]
      let sorted := [(1, 50, 7), (1, 20, 7), (1, 20, 1), (2, 40, 1), (2, 30, 1)]
      sortings.foldl (fun rows sorting => Sql.sortedBy compareCooks sorting rows) rows = sorted ∧
      Sql.sortedBy compareCooks s.orderings rows = sorted := by
  have success : (cooksByKitchen.prepareIn .defaults [] {}).toOption.any (fun result =>
      Sql.sortedBy compareCooks result.1.orderings
          [(2, 30, 1), (1, 20, 7), (2, 40, 1), (1, 50, 7), (1, 20, 1)] =
        [(1, 50, 7), (1, 20, 7), (1, 20, 1), (2, 40, 1), (2, 30, 1)]) = true := by
    decide +kernel
  have preorder (key : Sql.Expr) : Sorting.TotalPreorder (compareCooks key) :=
    ⟨fun a b => by simpa [compareCooks] using le_total (cookKey key a) (cookKey key b),
      fun a b c => by simpa [compareCooks] using le_trans⟩
  obtain ⟨⟨s, f⟩, prepared, sorted⟩ := Outcome.exists_of_any success
  obtain ⟨sortings, f₁, sorts, inTurn⟩ := clauses_sort_in_turn prepared rfl
  have once := of_decide_eq_true sorted
  exact ⟨s, f, sortings, f₁, prepared, sorts,
    (inTurn _ compareCooks (fun o _ => preorder o.expression) _).1.trans once, once⟩

end Model

end Query

end Comprehension
