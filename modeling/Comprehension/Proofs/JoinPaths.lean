import Comprehension.Proofs.Settled
import Mathlib.Data.List.Nodup

/-!
Paths of members through the joins of tables. Joins hang off a table or off another join, each
through a member of its own, so that a path of members from a table leads to one alias. Following a
member keeps all paths, and adds the one that is followed where it is not there yet.
-/
namespace Comprehension.Sql

/-- A left join to a table, made on a column under the alias of what it hangs off and on a column
under its own alias. -/
def Join.KeyedFrom (parent : String) (join : Join) : Prop :=
  join.kind = .left ∧ ∃ itemType tableName tableAlias, ∃ left right : Column,
    join.link = .resolved (.table itemType tableName tableAlias) (.column left) (.column right) ∧
      left.owner = parent ∧ right.owner = tableAlias

/-- Joins that hang off the table or join with an alias, at any depth. No two of one place lead
through the same member. -/
inductive Hangs : String → List Join → Prop where
  | intro {parent : String} {joins : List Join} (members : (joins.map Join.member).Nodup)
      (keyed : ∀ join ∈ joins, join.KeyedFrom parent)
      (below : ∀ join ∈ joins, ∀ tableAlias, join.link.tableAlias? = some tableAlias →
        Hangs tableAlias join.joins) :
      Hangs parent joins

/-- The alias that a path of members leads to from the table or join with an alias. -/
def aliasBelow : String → List Join → List String → Option String
  | tableAlias, _, [] => some tableAlias
  | _, joins, member :: path => do
    let join ← Join.find? member joins
    aliasBelow (← join.link.tableAlias?) join.joins path

/-- The alias that a path of members leads to from one of some tables. -/
def aliasAt (tables : List Table) (index : Nat) (path : List String) : Option String := do
  let table ← tables[index]?
  aliasBelow (← table.source.tableAlias?) table.joins path

/-- The joins of a table hang off it. A table without an alias has none. -/
def Table.Hung (table : Table) : Prop :=
  table.joins = [] ∨
    ∃ tableAlias, table.source.tableAlias? = some tableAlias ∧ Hangs tableAlias table.joins

section Hanging

variable {parent tableAlias : String} {join : Join} {joins rest : List Join}

theorem Join.KeyedFrom.named (h : join.KeyedFrom parent) :
    ∃ tableAlias, join.link.tableAlias? = some tableAlias := by
  obtain ⟨-, itemType, tableName, tableAlias, left, right, link, -, -⟩ := h
  exact ⟨tableAlias, by rw [link]; rfl⟩

theorem Hangs.nil (parent : String) : Hangs parent [] :=
  .intro List.nodup_nil (List.forall_mem_nil _) (List.forall_mem_nil _)

theorem hangs_cons : Hangs parent (join :: rest) ↔
    join.member ∉ rest.map Join.member ∧ join.KeyedFrom parent ∧
      (∀ tableAlias, join.link.tableAlias? = some tableAlias → Hangs tableAlias join.joins) ∧
      Hangs parent rest := by
  constructor
  · intro h
    cases h with
    | intro members keyed below =>
      obtain ⟨fresh, members⟩ := List.nodup_cons.mp members
      obtain ⟨first, keyed⟩ := List.forall_mem_cons.mp keyed
      obtain ⟨under, below⟩ := List.forall_mem_cons.mp below
      exact ⟨fresh, first, under, .intro members keyed below⟩
  · rintro ⟨fresh, first, under, later⟩
    cases later with
    | intro members keyed below =>
      exact .intro (List.nodup_cons.mpr ⟨fresh, members⟩) (List.forall_mem_cons.mpr ⟨first, keyed⟩)
        (List.forall_mem_cons.mpr ⟨under, below⟩)

/-- A join through another member is added at the end. -/
theorem Hangs.append (h : Hangs parent joins) (fresh : join.member ∉ joins.map Join.member)
    (keyed : join.KeyedFrom parent) (leaf : join.joins = []) : Hangs parent (joins ++ [join]) := by
  induction joins with
  | nil =>
    refine hangs_cons.mpr ⟨by simp, keyed, fun _ _ => ?_, .nil parent⟩
    rw [leaf]
    exact .nil _
  | cons first rest ih =>
    obtain ⟨apart, firstKeyed, under, later⟩ := hangs_cons.mp h
    rw [List.map_cons, List.mem_cons, not_or] at fresh
    have apart : first.member ∉ (rest ++ [join]).map Join.member := by
      rw [List.map_append, List.mem_append, not_or]
      exact ⟨apart, by simpa using Ne.symm fresh.1⟩
    exact hangs_cons.mpr ⟨apart, firstKeyed, under, ih later fresh.2⟩

/-- Induction along the joins of a place and, for each, along those that hang off it. -/
theorem Hangs.joins_induction {P : String → List Join → Prop} (nil : ∀ parent, P parent [])
    (cons : ∀ {parent member itemType tableName tableAlias : String} {left right : Column}
      {below rest : List Join}, left.owner = parent → right.owner = tableAlias →
      P tableAlias below → P parent rest →
      P parent (⟨member, .left, .resolved (.table itemType tableName tableAlias) (.column left)
        (.column right), below⟩ :: rest))
    (h : Hangs parent joins) : P parent joins := by
  induction h with
  | @intro parent joins members keyed below ih =>
    clear members
    induction joins with
    | nil => exact nil parent
    | cons join rest ihRest =>
      obtain ⟨first, keyedRest⟩ := List.forall_mem_cons.mp keyed
      obtain ⟨under, ihBelow⟩ := List.forall_mem_cons.mp ih
      have later := ihRest keyedRest (List.forall_mem_cons.mp below).2 ihBelow
      obtain ⟨member, kind, link, joins⟩ := join
      obtain ⟨rfl, itemType, tableName, own, left, right, rfl, leftOwner, rightOwner⟩ := first
      exact cons leftOwner rightOwner (under own rfl) later

theorem Hangs.keyed (h : Hangs parent joins) (hj : join ∈ joins) : join.KeyedFrom parent := by
  cases h with
  | intro members keyed below => exact keyed join hj

theorem Table.Hung.hangs {table : Table} (h : table.Hung)
    (named : table.source.tableAlias? = some tableAlias) : Hangs tableAlias table.joins := by
  rcases h with empty | ⟨own, hown, hangs⟩
  · rw [empty]
    exact .nil tableAlias
  · rwa [Option.some.inj (named.symm.trans hown)]

end Hanging

namespace Join

variable {member : String} {join : Join} {joins : List Join}

theorem find?_cons_self (join : Join) (rest : List Join) :
    find? join.member (join :: rest) = some join := by simp [find?]

theorem find?_cons_of_ne (rest : List Join) (h : join.member ≠ member) :
    find? member (join :: rest) = find? member rest := by simp [find?, h]

theorem find?_eq_none : find? member joins = none ↔ member ∉ joins.map Join.member := by
  induction joins with
  | nil => simp [find?]
  | cons first rest ih =>
    by_cases h : first.member = member
    · simp [find?, h]
    · simp [find?_cons_of_ne rest h, ih, Ne.symm h]

theorem find?_append (joins others : List Join) :
    find? member (joins ++ others) = (find? member joins).or (find? member others) := by
  induction joins with
  | nil => simp [find?]
  | cons first rest ih =>
    by_cases h : first.member = member
    · simp [find?, h]
    · rw [List.cons_append, find?_cons_of_ne _ h, find?_cons_of_ne _ h, ih]

end Join

section Paths

variable {tableAlias member : String} {join : Join} {joins rest : List Join} {path : List String}

@[simp] theorem aliasBelow_nil (tableAlias : String) (joins : List Join) :
    aliasBelow tableAlias joins [] = some tableAlias := rfl

theorem aliasBelow_cons (tableAlias : String) (joins : List Join) (member : String)
    (path : List String) : aliasBelow tableAlias joins (member :: path) =
      (Join.find? member joins).bind fun join =>
        join.link.tableAlias?.bind fun a => aliasBelow a join.joins path := rfl

theorem aliasBelow_cons_self {own : String} (named : join.link.tableAlias? = some own) :
    aliasBelow tableAlias (join :: rest) (join.member :: path) = aliasBelow own join.joins path := by
  rw [aliasBelow_cons, Join.find?_cons_self, Option.bind_some, named, Option.bind_some]

theorem aliasBelow_cons_of_ne (h : join.member ≠ member) :
    aliasBelow tableAlias (join :: rest) (member :: path) =
      aliasBelow tableAlias rest (member :: path) := by
  rw [aliasBelow_cons, Join.find?_cons_of_ne rest h, aliasBelow_cons]

/-- A join through another member adds one path. -/
theorem aliasBelow_append {own : String} (fresh : join.member ∉ joins.map Join.member)
    (named : join.link.tableAlias? = some own) (leaf : join.joins = []) :
    aliasBelow tableAlias (joins ++ [join]) path =
      if path = [join.member] then some own else aliasBelow tableAlias joins path := by
  cases path with
  | nil => simp
  | cons member path =>
    rw [aliasBelow_cons, aliasBelow_cons, Join.find?_append]
    by_cases h : join.member = member
    · subst h
      rw [Join.find?_eq_none.mpr fresh, Option.none_or, Join.find?_cons_self, Option.bind_some,
        named, Option.bind_some, leaf]
      cases path with
      | nil => simp
      | cons next path => simp [aliasBelow_cons, Join.find?]
    · rw [Join.find?_cons_of_ne [] h]
      simp [Join.find?, Ne.symm h]

end Paths

section Tables

variable {table : Table} {tables : List Table} {index : Nat} {path : List String} {a : String}

theorem aliasAt_zero (table : Table) (tables : List Table) (path : List String) :
    aliasAt (table :: tables) 0 path =
      table.source.tableAlias?.bind fun own => aliasBelow own table.joins path := rfl

theorem aliasAt_succ (table : Table) (tables : List Table) (index : Nat) (path : List String) :
    aliasAt (table :: tables) (index + 1) path = aliasAt tables index path := by
  simp [aliasAt]

theorem aliasAt_eq_some : aliasAt tables index path = some a ↔
    ∃ table own, tables[index]? = some table ∧ table.source.tableAlias? = some own ∧
      aliasBelow own table.joins path = some a := by
  constructor
  · intro h
    obtain ⟨table, ht, h⟩ := Option.bind_eq_some_iff.mp h
    obtain ⟨own, named, h⟩ := Option.bind_eq_some_iff.mp h
    exact ⟨table, own, ht, named, h⟩
  · rintro ⟨table, own, ht, named, h⟩
    exact Option.bind_eq_some_iff.mpr ⟨table, ht, Option.bind_eq_some_iff.mpr ⟨own, named, h⟩⟩

end Tables

/-- A place among joins and the path that leads there. What is put there is found by going on from
the end of that path, and all other paths lead where they led before. -/
structure Spot (parent : String) (tree : List Join) (tableAlias : String) (joins : List Join)
    (rebuild : List Join → List Join) (base : List String) : Prop where
  hangs : Hangs tableAlias joins
  keeps : ∀ {replaced}, Hangs tableAlias replaced → Hangs parent (rebuild replaced)
  here : ∀ replaced path,
    aliasBelow parent (rebuild replaced) (base ++ path) = aliasBelow tableAlias replaced path
  elsewhere : ∀ replaced {path}, ¬ base <+: path →
    aliasBelow parent (rebuild replaced) path = aliasBelow parent tree path

namespace Spot

variable {parent tableAlias own : String} {join : Join} {tree joins rest : List Join}
  {rebuild : List Join → List Join} {base : List String}

theorem self (hangs : Hangs tableAlias joins) : Spot tableAlias joins tableAlias joins id [] where
  hangs := hangs
  keeps := fun h => h
  here := fun _ _ => rfl
  elsewhere := fun _ _ h => absurd List.nil_prefix h

/-- A place below the first join is reached through its member. -/
theorem first (h : Spot own join.joins tableAlias joins rebuild base)
    (named : join.link.tableAlias? = some own) (hangs : Hangs parent (join :: rest)) :
    Spot parent (join :: rest) tableAlias joins
      (fun replaced => { join with joins := rebuild replaced } :: rest) (join.member :: base) := by
  obtain ⟨fresh, keyed, -, later⟩ := hangs_cons.mp hangs
  have through (replaced : List Join) (path : List String) :
      aliasBelow parent ({ join with joins := rebuild replaced } :: rest) (join.member :: path) =
        aliasBelow own (rebuild replaced) path := by
    have named : ({ join with joins := rebuild replaced } : Join).link.tableAlias? = some own := named
    exact aliasBelow_cons_self named
  refine ⟨h.hangs, fun below => ?_, fun replaced path => ?_, fun replaced path apart => ?_⟩
  · refine hangs_cons.mpr ⟨fresh, keyed, fun a ha => ?_, later⟩
    obtain rfl := Option.some.inj (named.symm.trans ha)
    exact h.keeps below
  · exact (through replaced (base ++ path)).trans (h.here replaced path)
  · cases path with
    | nil => rfl
    | cons member path =>
      by_cases same : join.member = member
      · subst same
        have apart : ¬ base <+: path := fun started =>
          apart (List.cons_prefix_cons.mpr ⟨rfl, started⟩)
        rw [aliasBelow_cons_self named]
        exact (through replaced path).trans (h.elsewhere replaced apart)
      · rw [aliasBelow_cons_of_ne same]
        exact aliasBelow_cons_of_ne same

/-- A place behind the first join is reached without it. -/
theorem later {member : String} (h : Spot parent rest tableAlias joins rebuild (member :: base))
    (hangs : Hangs parent (join :: rest)) (mem : member ∈ rest.map Join.member)
    (members : ∀ replaced, (rebuild replaced).map Join.member = rest.map Join.member) :
    Spot parent (join :: rest) tableAlias joins (fun replaced => join :: rebuild replaced)
      (member :: base) := by
  obtain ⟨fresh, keyed, under, -⟩ := hangs_cons.mp hangs
  -- The place is found by alias, but a path goes by members: here they must not clash.
  have differs : join.member ≠ member := fun same => fresh (same ▸ mem)
  refine ⟨h.hangs, fun below => ?_, fun replaced path => ?_, fun replaced path apart => ?_⟩
  · exact hangs_cons.mpr ⟨by rwa [members], keyed, under, h.keeps below⟩
  · exact (aliasBelow_cons_of_ne differs).trans (h.here replaced path)
  · cases path with
    | nil => rfl
    | cons next path =>
      by_cases same : join.member = next
      · subst same
        rw [aliasBelow_cons, Join.find?_cons_self, aliasBelow_cons, Join.find?_cons_self]
      · rw [aliasBelow_cons_of_ne same, aliasBelow_cons_of_ne same]
        exact h.elsewhere replaced apart

end Spot

mutual

theorem Join.spot_of_focus {tableAlias own : String} {join : Join} {joins : List Join}
    {rebuild : List Join → Join} (h : join.focus tableAlias = some (joins, rebuild))
    (named : join.link.tableAlias? = some own) (hangs : Hangs own join.joins) :
    ∃ below base, (∀ replaced, rebuild replaced = { join with joins := below replaced }) ∧
      Spot own join.joins tableAlias joins below base := by
  obtain ⟨member, kind, link, tree⟩ := join
  unfold Join.focus at h
  split at h
  · rename_i found
    cases h
    obtain rfl := Option.some.inj (named.symm.trans found)
    exact ⟨id, [], fun _ => rfl, .self hangs⟩
  · split at h
    · rename_i inner rebuildBelow found
      cases h
      obtain ⟨first, base, -, -, spot⟩ := Join.spot_of_focusIn found hangs
      exact ⟨rebuildBelow, first :: base, fun _ => rfl, spot⟩
    · cases h

theorem Join.spot_of_focusIn {tableAlias parent : String} {tree joins : List Join}
    {rebuild : List Join → List Join} (h : Join.focusIn tableAlias tree = some (joins, rebuild))
    (hangs : Hangs parent tree) :
    ∃ member base, member ∈ tree.map Join.member ∧
      (∀ replaced, (rebuild replaced).map Join.member = tree.map Join.member) ∧
      Spot parent tree tableAlias joins rebuild (member :: base) := by
  cases tree with
  | nil => cases h
  | cons join rest =>
    obtain ⟨-, keyed, under, later⟩ := hangs_cons.mp hangs
    unfold Join.focusIn at h
    split at h
    · rename_i inner rebuildFirst found
      cases h
      obtain ⟨own, named⟩ := keyed.named
      obtain ⟨below, base, rebuilt, spot⟩ := Join.spot_of_focus found named (under own named)
      refine ⟨join.member, base, List.mem_cons_self, fun replaced => ?_, ?_⟩
      · simp [rebuilt]
      · simp only [rebuilt]
        exact spot.first named hangs
    · split at h
      · rename_i inner rebuildRest found
        cases h
        obtain ⟨member, base, mem, members, spot⟩ := Join.spot_of_focusIn found later
        refine ⟨member, base, List.mem_cons_of_mem _ mem, fun replaced => ?_, ?_⟩
        · rw [List.map_cons, List.map_cons, members]
        · exact spot.later hangs mem members
      · cases h

end

/-- A place below one of some tables, and the path that leads there from the table. -/
structure TableSpot (tables : List Table) (tableAlias : String) (joins : List Join)
    (rebuild : List Join → List Table) (index : Nat) (base : List String) : Prop where
  hangs : Hangs tableAlias joins
  keeps : ∀ {replaced}, Hangs tableAlias replaced → ∀ table ∈ rebuild replaced, table.Hung
  here : ∀ replaced path,
    aliasAt (rebuild replaced) index (base ++ path) = aliasBelow tableAlias replaced path
  elsewhere : ∀ replaced {i path}, ¬ (i = index ∧ base <+: path) →
    aliasAt (rebuild replaced) i path = aliasAt tables i path

namespace Table

variable {tableAlias : String} {joins : List Join}

theorem spot_of_focus {table : Table} {rebuild : List Join → Table}
    (h : table.focus tableAlias = some (joins, rebuild)) (hung : table.Hung) :
    ∃ own below base, table.source.tableAlias? = some own ∧
      (∀ replaced, rebuild replaced = { table with joins := below replaced }) ∧
      Spot own table.joins tableAlias joins below base := by
  unfold focus at h
  split at h
  · rename_i found
    cases h
    exact ⟨tableAlias, id, [], found, fun _ => rfl, .self (hung.hangs found)⟩
  · split at h
    · rename_i inner rebuildBelow found
      cases h
      rcases hung with empty | ⟨own, named, hangs⟩
      · rw [empty] at found
        cases found
      · obtain ⟨first, base, -, -, spot⟩ := Join.spot_of_focusIn found hangs
        exact ⟨own, rebuildBelow, first :: base, named, fun _ => rfl, spot⟩
    · cases h

theorem spot_of_focusIn {tables : List Table} {rebuild : List Join → List Table}
    (h : focusIn tableAlias tables = some (joins, rebuild)) (hung : ∀ table ∈ tables, table.Hung) :
    ∃ index base, TableSpot tables tableAlias joins rebuild index base := by
  induction tables generalizing joins rebuild with
  | nil => cases h
  | cons table rest ih =>
    obtain ⟨first, later⟩ := List.forall_mem_cons.mp hung
    unfold focusIn at h
    split at h
    · rename_i inner rebuildFirst found
      cases h
      obtain ⟨own, below, base, named, rebuilt, spot⟩ := spot_of_focus found first
      have at_first (replaced : List Join) (path : List String) :
          aliasAt (rebuildFirst replaced :: rest) 0 path = aliasBelow own (below replaced) path := by
        rw [aliasAt_zero, rebuilt, named, Option.bind_some]
      refine ⟨0, base, spot.hangs, fun hangs => ?_, fun replaced path => ?_, ?_⟩
      · refine List.forall_mem_cons.mpr ⟨.inr ⟨own, ?_, ?_⟩, later⟩
        · rw [rebuilt]
          exact named
        · rw [rebuilt]
          exact spot.keeps hangs
      · exact (at_first _ _).trans (spot.here replaced path)
      · intro replaced i path apart
        cases i with
        | zero =>
          rw [at_first, aliasAt_zero, named, Option.bind_some]
          exact spot.elsewhere replaced fun started => apart ⟨rfl, started⟩
        | succ i => rw [aliasAt_succ, aliasAt_succ]
    · split at h
      · rename_i inner rebuildRest found
        cases h
        obtain ⟨index, base, spot⟩ := ih found later
        refine ⟨index + 1, base, spot.hangs, fun hangs => ?_, fun replaced path => ?_, ?_⟩
        · exact List.forall_mem_cons.mpr ⟨first, spot.keeps hangs⟩
        · rw [aliasAt_succ]
          exact spot.here replaced path
        · intro replaced i path apart
          cases i with
          | zero => rw [aliasAt_zero, aliasAt_zero]
          | succ i =>
            rw [aliasAt_succ, aliasAt_succ]
            refine spot.elsewhere replaced fun inside => apart ⟨?_, inside.2⟩
            rw [inside.1]
      · cases h

end Table

section Links

variable {parent : String} {joins : List Join}

/-- Joins that hang off something are mapped. -/
theorem Hangs.linked (h : Hangs parent joins) :
    ∀ link ∈ joinLinks joins, ∀ origin member, link ≠ .unresolved origin member := by
  refine h.joins_induction (P := fun _ joins => ∀ link ∈ joinLinks joins, ∀ origin member,
    link ≠ .unresolved origin member) (fun _ => List.forall_mem_nil _) fun _ _ below rest => ?_
  rw [joinLinks, Join.links, List.cons_append, List.forall_mem_cons, List.forall_mem_append]
  exact ⟨by simp, below, rest⟩

theorem linked_of_hung {tables : List Table} (hung : ∀ table ∈ tables, table.Hung) :
    Linked tables := by
  intro link hl
  obtain ⟨table, ht, hl⟩ := List.mem_flatMap.mp hl
  rcases hung table ht with empty | ⟨own, -, hangs⟩
  · rw [empty] at hl
    cases hl
  · exact hangs.linked link hl

end Links

section Steps

variable {schema : Schema} {tables tables₁ tables' : List Table}

/-- A join at the end of a place adds the one path that leads to it. -/
theorem TableSpot.aliasAt_append {tableAlias own : String} {joins : List Join}
    {rebuild : List Join → List Table} {index : Nat} {base : List String} {join : Join}
    (spot : TableSpot tables tableAlias joins rebuild index base) (self : rebuild joins = tables)
    (fresh : join.member ∉ joins.map Join.member) (named : join.link.tableAlias? = some own)
    (leaf : join.joins = []) (i : Nat) (path : List String) :
    aliasAt (rebuild (joins ++ [join])) i path =
      if i = index ∧ path = base ++ [join.member] then some own else aliasAt tables i path := by
  by_cases inside : i = index ∧ base <+: path
  · obtain ⟨rfl, more, rfl⟩ := inside
    have before := spot.here joins more
    rw [self] at before
    rw [spot.here, aliasBelow_append fresh named leaf, before]
    simp
  · rw [spot.elsewhere _ inside, if_neg]
    rintro ⟨rfl, rfl⟩
    exact inside ⟨rfl, List.prefix_append _ _⟩

/-- Tables before and after some members have been followed from one alias to another: paths are
kept, and each new one goes on from another by a member that was followed. -/
structure Grown (follows : String → String → String → Prop) (tables tables' : List Table) :
    Prop where
  hung : ∀ table ∈ tables', table.Hung
  kept : ∀ {index path a}, aliasAt tables index path = some a → aliasAt tables' index path = some a
  new : ∀ {index path a}, aliasAt tables' index path = some a →
    aliasAt tables index path = some a ∨ ∃ base start member, path = base ++ [member] ∧
      aliasAt tables' index base = some start ∧ follows start member a

namespace Grown

variable {follows others : String → String → String → Prop}

theorem refl (hung : ∀ table ∈ tables, table.Hung) : Grown follows tables tables :=
  ⟨hung, id, .inl⟩

theorem trans (h : Grown follows tables tables₁) (h' : Grown follows tables₁ tables') :
    Grown follows tables tables' := by
  refine ⟨h'.hung, fun ha => h'.kept (h.kept ha), fun ha => ?_⟩
  rcases h'.new ha with ha | new
  · rcases h.new ha with ha | ⟨base, start, member, rfl, led, followed⟩
    · exact .inl ha
    · exact .inr ⟨base, start, member, rfl, h'.kept led, followed⟩
  · exact .inr new

theorem mono (h : Grown follows tables tables')
    (sub : ∀ {start member a}, follows start member a → others start member a) :
    Grown others tables tables' := by
  refine ⟨h.hung, h.kept, fun ha => (h.new ha).imp_right ?_⟩
  rintro ⟨base, start, member, rfl, led, followed⟩
  exact ⟨base, start, member, rfl, led, sub followed⟩

end Grown

/-- A path that goes on by a member. -/
def Leads (tables : List Table) (start member target : String) : Prop :=
  ∃ index path, aliasAt tables index path = some start ∧
    aliasAt tables index (path ++ [member]) = some target

theorem Leads.mono {start member target : String} (h : Leads tables start member target)
    (kept : ∀ {index path a}, aliasAt tables index path = some a →
      aliasAt tables' index path = some a) : Leads tables' start member target := by
  obtain ⟨index, path, before, after⟩ := h
  exact ⟨index, path, kept before, kept after⟩

/-- A join that is put at a place leads on from there. -/
theorem TableSpot.extended {tableAlias own : String} {joins : List Join}
    {rebuild : List Join → List Table} {index : Nat} {base : List String} {join : Join}
    (spot : TableSpot tables tableAlias joins rebuild index base) (self : rebuild joins = tables)
    (fresh : join.member ∉ joins.map Join.member) (keyed : join.KeyedFrom tableAlias)
    (named : join.link.tableAlias? = some own) (leaf : join.joins = []) :
    Leads (rebuild (joins ++ [join])) tableAlias join.member own ∧
      Grown (fun start through a => start = tableAlias ∧ through = join.member ∧ a = own) tables
        (rebuild (joins ++ [join])) := by
  have paths := spot.aliasAt_append self fresh named leaf
  have missing : aliasAt tables index (base ++ [join.member]) = none := by
    rw [← self, spot.here, aliasBelow_cons, Join.find?_eq_none.mpr fresh, Option.bind_none]
  have kept {i : Nat} {path : List String} {a : String} (ha : aliasAt tables i path = some a) :
      aliasAt (rebuild (joins ++ [join])) i path = some a := by
    rw [paths, if_neg, ha]
    rintro ⟨rfl, rfl⟩
    rw [missing] at ha
    cases ha
  have start : aliasAt (rebuild (joins ++ [join])) index base = some tableAlias := by
    rw [← List.append_nil base, spot.here, aliasBelow_nil]
  refine ⟨⟨index, base, start, ?_⟩, ?_, kept, fun {i path a} ha => ?_⟩
  · rw [paths, if_pos ⟨rfl, rfl⟩]
  · exact spot.keeps (spot.hangs.append fresh keyed leaf)
  · rw [paths] at ha
    split at ha
    · rename_i last
      obtain ⟨rfl, rfl⟩ := last
      exact .inr ⟨base, tableAlias, join.member, rfl, start, rfl, rfl, (Option.some.inj ha).symm⟩
    · exact .inl ha

/-- The rows of a table are entities under its alias. -/
theorem Source.entity_of_row {itemType tableName tableAlias : String}
    {unresolved : String → Violation} {row : Expr}
    (h : (Source.table itemType tableName tableAlias).row schema unresolved = .ok row) :
    ∃ e : Entity, row = .entity e ∧ e.tableAlias = tableAlias := by
  obtain ⟨e, he, h⟩ := Outcome.bind_eq_ok.mp h
  obtain ⟨mapping, key, -, -, rfl⟩ := Schema.entity_eq_ok he
  exact ⟨_, (Outcome.pure_eq_ok.mp h).symm, rfl⟩

/-- Following a member of an entity leads from its alias to that of another one. No other path is
added. -/
theorem Entity.navigate_leads {e : Entity} {member : String} {f f' : Fresh} {row : Expr}
    (hung : ∀ table ∈ tables, table.Hung)
    (h : e.navigate (Mapping.ofSchema schema) member tables f = .ok ((row, tables'), f')) :
    ∃ target : Entity, row = .entity target ∧
      Leads tables' e.tableAlias member target.tableAlias ∧
      Grown (fun start through a => start = e.tableAlias ∧ through = member ∧ a = target.tableAlias)
        tables tables' := by
  obtain ⟨joins, rebuild, found, target, exposed, step⟩ := navigate_cases (linked_of_hung hung) h
  obtain ⟨place, -, -⟩ := Table.place_of_focusIn found
  obtain ⟨index, base, spot⟩ := Table.spot_of_focusIn found hung
  have start : aliasAt tables index base = some e.tableAlias := by
    rw [← place.rebuild_self, ← List.append_nil base, spot.here, aliasBelow_nil]
  have onward : aliasAt tables index (base ++ [member]) =
      (Join.find? member joins).bind fun join => join.link.tableAlias? := by
    rw [← place.rebuild_self, spot.here, aliasBelow_cons]
    simp
  rcases step with ⟨join, there, same, rfl, rfl⟩ | ⟨missing, joined, rfl⟩
  · -- The join is there, and so is the path.
    obtain ⟨-, itemType, tableName, own, left, right, link, -, -⟩ :=
      spot.hangs.keyed (Join.mem_of_find? there).1
    rw [there, Option.bind_some, link] at onward
    rw [link] at same
    rw [← (Link.resolved.inj same).1] at exposed
    obtain ⟨entity, rfl, rfl⟩ := Source.entity_of_row exposed
    exact ⟨entity, rfl, ⟨index, base, start, onward⟩, .refl hung⟩
  · obtain ⟨itemType, tableName, left, right, leftOwner, rightOwner, rfl, rfl⟩ :=
      Mapping.join_eq_ok joined
    obtain ⟨entity, rfl, named⟩ := Source.entity_of_row exposed
    refine ⟨entity, rfl, ?_⟩
    rw [named]
    refine spot.extended place.rebuild_self (Join.find?_eq_none.mp missing) ⟨rfl, ?_⟩ rfl rfl
    exact ⟨itemType, tableName, _, left, right, rfl, leftOwner, rightOwner⟩

end Steps

section Distinct

variable {tableAlias a : String} {joins : List Join} {path other : List String}

/-- The alias of a join and those of the joins below it. -/
def Join.aliases (join : Join) : List String := join.links.filterMap Link.tableAlias?

def joinAliases (joins : List Join) : List String := joins.flatMap Join.aliases

theorem joinAliases_eq (joins : List Join) :
    joinAliases joins = (joinLinks joins).filterMap Link.tableAlias? := by
  induction joins with
  | nil => rfl
  | cons join rest ih =>
    rw [joinLinks, List.filterMap_append, ← ih]
    rfl

theorem Join.aliases_eq {join : Join} {own : String} (named : join.link.tableAlias? = some own) :
    join.aliases = own :: joinAliases join.joins := by
  obtain ⟨member, kind, link, below⟩ := join
  rw [joinAliases_eq, Join.aliases, Join.links, List.filterMap_cons_some named]

/-- Two elements that share something among distinct things are the same. -/
theorem eq_of_nodup_flatMap {α β : Type} {f : α → List β} {l : List α} (h : (l.flatMap f).Nodup)
    {x y : α} {b : β} (hx : x ∈ l) (hy : y ∈ l) (hbx : b ∈ f x) (hby : b ∈ f y) : x = y := by
  induction l with
  | nil => cases hx
  | cons first rest ih =>
    rw [List.flatMap_cons] at h
    obtain ⟨-, later, disjoint⟩ := List.nodup_append.mp h
    have apart {z : α} (hz : z ∈ rest) (hb : b ∈ f z) : b ∉ f first := fun hf =>
      disjoint b hf b (List.mem_flatMap.mpr ⟨z, hz, hb⟩) rfl
    rcases List.mem_cons.mp hx with rfl | hx'
    · rcases List.mem_cons.mp hy with rfl | hy'
      · rfl
      · exact absurd hbx (apart hy' hby)
    · rcases List.mem_cons.mp hy with rfl | hy'
      · exact absurd hby (apart hx' hbx)
      · exact ih later hx' hy'

/-- The first step of a path goes through a join, and the rest of it leads to an alias of that join
or of one below it. -/
theorem exists_of_aliasBelow {member : String}
    (h : aliasBelow tableAlias joins (member :: path) = some a) :
    ∃ join own, join ∈ joins ∧ join.member = member ∧ join.link.tableAlias? = some own ∧
      aliasBelow own join.joins path = some a := by
  rw [aliasBelow_cons] at h
  obtain ⟨join, found, h⟩ := Option.bind_eq_some_iff.mp h
  obtain ⟨own, named, h⟩ := Option.bind_eq_some_iff.mp h
  obtain ⟨mem, through⟩ := Join.mem_of_find? found
  exact ⟨join, own, mem, through, named, h⟩

theorem mem_of_aliasBelow (h : aliasBelow tableAlias joins path = some a) :
    a ∈ tableAlias :: joinAliases joins := by
  induction path generalizing tableAlias joins with
  | nil =>
    obtain rfl := Option.some.inj h
    exact List.mem_cons_self
  | cons member path ih =>
    obtain ⟨join, own, mem, -, named, h⟩ := exists_of_aliasBelow h
    have below := ih h
    rw [← Join.aliases_eq named] at below
    exact List.mem_cons_of_mem _ (List.mem_flatMap.mpr ⟨join, mem, below⟩)

theorem Join.mem_aliases {join : Join} {own : String} (named : join.link.tableAlias? = some own)
    (h : aliasBelow own join.joins path = some a) : a ∈ join.aliases := by
  rw [Join.aliases_eq named]
  exact mem_of_aliasBelow h

/-- Where aliases are distinct, different paths lead to different ones. -/
theorem aliasBelow_injective (nodup : (tableAlias :: joinAliases joins).Nodup)
    (h : aliasBelow tableAlias joins path = some a)
    (h' : aliasBelow tableAlias joins other = some a) : path = other := by
  obtain ⟨fresh, distinct⟩ := List.nodup_cons.mp nodup
  induction path generalizing tableAlias joins other with
  | nil =>
    obtain rfl := Option.some.inj h
    cases other with
    | nil => rfl
    | cons member other =>
      obtain ⟨join, own, mem, -, named, h'⟩ := exists_of_aliasBelow h'
      exact absurd (List.mem_flatMap.mpr ⟨join, mem, join.mem_aliases named h'⟩) fresh
  | cons member path ih =>
    obtain ⟨join, own, mem, through, named, h⟩ := exists_of_aliasBelow h
    have below := join.mem_aliases named h
    cases other with
    | nil =>
      obtain rfl := Option.some.inj h'
      exact absurd (List.mem_flatMap.mpr ⟨join, mem, below⟩) fresh
    | cons member' other =>
      obtain ⟨join', own', mem', through', named', h'⟩ := exists_of_aliasBelow h'
      -- Both paths go through the join that has the alias, and through its member.
      obtain rfl := eq_of_nodup_flatMap distinct mem mem' below (join'.mem_aliases named' h')
      obtain rfl := Option.some.inj (named.symm.trans named')
      have nodup := (List.nodup_flatMap.mp distinct).1 join mem
      rw [Join.aliases_eq named] at nodup
      obtain ⟨fresh, distinct⟩ := List.nodup_cons.mp nodup
      rw [← through, ← through', ih nodup h h' fresh distinct]

theorem Table.aliases_eq {table : Table} {own : String}
    (named : table.source.tableAlias? = some own) :
    table.aliases = own :: joinAliases table.joins := by
  rw [Table.aliases, named, joinAliases_eq]
  rfl

theorem mem_of_aliasAt {tables : List Table} {index : Nat}
    (h : aliasAt tables index path = some a) : a ∈ tableAliases tables := by
  induction tables generalizing index with
  | nil => cases h
  | cons table rest ih =>
    refine (tableAliases_cons table rest).mem_iff.mpr (List.mem_append.mpr ?_)
    cases index with
    | zero =>
      rw [aliasAt_zero] at h
      obtain ⟨own, named, h⟩ := Option.bind_eq_some_iff.mp h
      rw [Table.aliases_eq named]
      exact .inl (mem_of_aliasBelow h)
    | succ index =>
      rw [aliasAt_succ] at h
      exact .inr (ih h)

/-- Where aliases are distinct, different paths lead to different ones, also from different
tables. -/
theorem aliasAt_injective {tables : List Table} {i j : Nat} (nodup : (tableAliases tables).Nodup)
    (h : aliasAt tables i path = some a) (h' : aliasAt tables j other = some a) :
    i = j ∧ path = other := by
  induction tables generalizing i j with
  | nil => cases h
  | cons table rest ih =>
    obtain ⟨first, later, disjoint⟩ :=
      List.nodup_append.mp ((tableAliases_cons table rest).nodup_iff.mp nodup)
    have below {path : List String} (h : aliasAt (table :: rest) 0 path = some a) :
        a ∈ table.aliases ∧ ∃ own, table.source.tableAlias? = some own ∧
          aliasBelow own table.joins path = some a := by
      rw [aliasAt_zero] at h
      obtain ⟨own, named, h⟩ := Option.bind_eq_some_iff.mp h
      rw [Table.aliases_eq named]
      exact ⟨mem_of_aliasBelow h, own, named, h⟩
    cases i with
    | zero =>
      obtain ⟨mem, own, named, h⟩ := below h
      cases j with
      | zero =>
        obtain ⟨-, own', named', h'⟩ := below h'
        obtain rfl := Option.some.inj (named.symm.trans named')
        rw [Table.aliases_eq named] at first
        exact ⟨rfl, aliasBelow_injective first h h'⟩
      | succ j =>
        rw [aliasAt_succ] at h'
        exact absurd rfl (disjoint a mem a (mem_of_aliasAt h'))
    | succ i =>
      rw [aliasAt_succ] at h
      cases j with
      | zero => exact absurd rfl (disjoint a (below h').1 a (mem_of_aliasAt h))
      | succ j =>
        rw [aliasAt_succ] at h'
        obtain ⟨rfl, same⟩ := ih later h h'
        exact ⟨rfl, same⟩

end Distinct

end Comprehension.Sql
