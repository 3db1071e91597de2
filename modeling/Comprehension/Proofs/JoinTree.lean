import Comprehension.Proofs.Mapping

/-!
The links of a join tree and the aliases of the tables of a statement, and what following a member
does to them: nothing where the join is there already, and one more link under a fresh alias where
it is not.
-/
namespace Comprehension.Sql

mutual

/-- The link of a join and the links of the joins that hang off it. -/
def Join.links : Join → List Link
  | ⟨_, _, link, joins⟩ => link :: joinLinks joins

def joinLinks : List Join → List Link
  | [] => []
  | join :: rest => join.links ++ joinLinks rest

end

def tableLinks (tables : List Table) : List Link :=
  tables.flatMap fun table => joinLinks table.joins

theorem tableLinks_cons (table : Table) (tables : List Table) :
    tableLinks (table :: tables) = joinLinks table.joins ++ tableLinks tables := by
  simp [tableLinks]

def sourceAliases (tables : List Table) : List String :=
  tables.filterMap fun table => table.source.tableAlias?

/-- The aliases of tables and of all joins below them. -/
def tableAliases (tables : List Table) : List String :=
  sourceAliases tables ++ (tableLinks tables).filterMap Link.tableAlias?

def Statement.aliases (s : Statement) : List String := tableAliases s.tables

/-- Whether all joins of the tables are mapped. -/
def Linked (tables : List Table) : Prop :=
  ∀ link ∈ tableLinks tables, ∀ origin member, link ≠ .unresolved origin member

theorem Linked.of_links {tables tables' : List Table} (h : Linked tables)
    (links : tableLinks tables' = tableLinks tables) : Linked tables' := by
  unfold Linked
  rw [links]
  exact h

theorem Linked.append {tables tables' : List Table} {target : JoinTarget} (h : Linked tables)
    (links : (tableLinks tables').Perm (tableLinks tables ++ [target.link])) : Linked tables' := by
  intro link hl
  rcases List.mem_append.mp (links.mem_iff.mp hl) with hl | hl
  · exact h link hl
  · obtain rfl := List.mem_singleton.mp hl
    exact fun _ _ => Link.noConfusion

/-- A table but for its joins. -/
def Table.bare (table : Table) : Nat × Source × JoinKind := (table.key, table.source, table.kind)

theorem joinLinks_append (joins others : List Join) :
    joinLinks (joins ++ others) = joinLinks joins ++ joinLinks others := by
  induction joins with
  | nil => rfl
  | cons join rest ih => simp [joinLinks, ih]

theorem sourceAliases_eq_of_bare {tables tables' : List Table}
    (h : tables'.map Table.bare = tables.map Table.bare) :
    sourceAliases tables' = sourceAliases tables := by
  have bare (tables : List Table) :
      sourceAliases tables = (tables.map Table.bare).filterMap fun t => t.2.1.tableAlias? := by
    simp [sourceAliases, List.filterMap_map, Table.bare, Function.comp_def]
  rw [bare, bare, h]

/-- The alias of a table and those of the joins below it. -/
def Table.aliases (table : Table) : List String :=
  table.source.tableAlias?.toList ++ (joinLinks table.joins).filterMap Link.tableAlias?

theorem tableAliases_cons (table : Table) (tables : List Table) :
    (tableAliases (table :: tables)).Perm (table.aliases ++ tableAliases tables) := by
  have sources : sourceAliases (table :: tables) =
      table.source.tableAlias?.toList ++ sourceAliases tables := by
    cases h : table.source.tableAlias? <;> simp [sourceAliases, h]
  rw [tableAliases, tableAliases, Table.aliases, sources, tableLinks_cons, List.filterMap_append,
    List.append_assoc, List.append_assoc]
  refine List.Perm.append_left _ ?_
  rw [← List.append_assoc, ← List.append_assoc]
  exact List.perm_append_comm.append_right _

/-- A join that is added to tables adds the alias of its source. -/
theorem tableAliases_append {tables tables' : List Table} {target : JoinTarget}
    (bare : tables'.map Table.bare = tables.map Table.bare)
    (links : (tableLinks tables').Perm (tableLinks tables ++ [target.link])) :
    (tableAliases tables').Perm (tableAliases tables ++ target.source.tableAlias?.toList) := by
  rw [tableAliases, tableAliases, sourceAliases_eq_of_bare bare, List.append_assoc]
  refine List.Perm.append_left _ ((links.filterMap _).trans ?_)
  rw [List.filterMap_append]
  refine List.Perm.append_left _ ?_
  cases h : target.source.tableAlias? <;> simp [JoinTarget.link, Link.tableAlias?, h]

/-- A place among joins: what stands there now, and how the whole looks when something else is put
there. All links but those of the place stay. -/
structure Place {α : Type} (links : α → List Link) (whole : α) (joins : List Join)
    (rebuild : List Join → α) : Prop where
  rebuild_self : rebuild joins = whole
  links_rebuild : ∃ others, ∀ replaced, (links (rebuild replaced)).Perm (others ++ joinLinks replaced)

mutual

theorem Join.place_of_focus {tableAlias : String} {join : Join} {joins : List Join}
    {rebuild : List Join → Join} (h : join.focus tableAlias = some (joins, rebuild)) :
    Place Join.links join joins rebuild ∧ some tableAlias ∈ join.links.map Link.tableAlias? := by
  obtain ⟨member, kind, link, below⟩ := join
  unfold Join.focus at h
  split at h
  · rename_i found
    cases h
    refine ⟨⟨rfl, [link], fun replaced => ?_⟩, ?_⟩
    · simp [Join.links]
    · simp [Join.links, found]
  · split at h
    · rename_i inner rebuildBelow found
      cases h
      obtain ⟨⟨self, others, links⟩, mem⟩ := Join.place_of_focusIn found
      refine ⟨⟨by rw [self], link :: others, fun replaced => ?_⟩, ?_⟩
      · simpa [Join.links] using links replaced
      · exact List.mem_cons_of_mem _ mem
    · cases h

theorem Join.place_of_focusIn {tableAlias : String} {tree joins : List Join}
    {rebuild : List Join → List Join} (h : Join.focusIn tableAlias tree = some (joins, rebuild)) :
    Place joinLinks tree joins rebuild ∧ some tableAlias ∈ (joinLinks tree).map Link.tableAlias? := by
  cases tree with
  | nil => cases h
  | cons join rest =>
    unfold Join.focusIn at h
    split at h
    · rename_i inner rebuildFirst found
      cases h
      obtain ⟨⟨self, others, links⟩, mem⟩ := Join.place_of_focus found
      refine ⟨⟨by rw [self], joinLinks rest ++ others, fun replaced => ?_⟩, ?_⟩
      · rw [joinLinks, List.append_assoc]
        exact List.perm_append_comm.trans ((links replaced).append_left _)
      · rw [joinLinks, List.map_append]
        exact List.mem_append_left _ mem
    · split at h
      · rename_i inner rebuildRest found
        cases h
        obtain ⟨⟨self, others, links⟩, mem⟩ := Join.place_of_focusIn found
        refine ⟨⟨by rw [self], join.links ++ others, fun replaced => ?_⟩, ?_⟩
        · rw [joinLinks, List.append_assoc]
          exact (links replaced).append_left _
        · rw [joinLinks, List.map_append]
          exact List.mem_append_right _ mem
      · cases h

end

namespace Table

theorem place_of_focus {tableAlias : String} {table : Table} {joins : List Join}
    {rebuild : List Join → Table} (h : table.focus tableAlias = some (joins, rebuild)) :
    Place (fun table => joinLinks table.joins) table joins rebuild ∧
      (∀ replaced, (rebuild replaced).bare = table.bare) ∧ tableAlias ∈ tableAliases [table] := by
  unfold focus at h
  split at h
  · rename_i found
    cases h
    refine ⟨⟨by cases table; rfl, [], fun replaced => by simp⟩, fun _ => rfl, ?_⟩
    simp [tableAliases, sourceAliases, found]
  · split at h
    · rename_i inner rebuildBelow found
      cases h
      obtain ⟨⟨self, others, links⟩, mem⟩ := Join.place_of_focusIn found
      refine ⟨⟨by cases table; rw [self], others, links⟩, fun _ => rfl, ?_⟩
      refine List.mem_append_right _ ?_
      obtain ⟨link, hl, ha⟩ := List.mem_map.mp mem
      exact List.mem_filterMap.mpr ⟨link, by simpa [tableLinks] using hl, ha⟩
    · cases h

/-- Below a table with the alias, or below a join with it, other joins can be put without any
change to the tables themselves. -/
theorem place_of_focusIn {tableAlias : String} {tables : List Table} {joins : List Join}
    {rebuild : List Join → List Table} (h : focusIn tableAlias tables = some (joins, rebuild)) :
    Place tableLinks tables joins rebuild ∧
      (∀ replaced, (rebuild replaced).map bare = tables.map bare) ∧
      tableAlias ∈ tableAliases tables := by
  induction tables generalizing joins rebuild with
  | nil => cases h
  | cons table rest ih =>
    have mem_cons {a : String} (h : a ∈ tableAliases [table] ∨ a ∈ tableAliases rest) :
        a ∈ tableAliases (table :: rest) := by
      simp only [tableAliases, sourceAliases, tableLinks, List.mem_append, List.mem_filterMap,
        List.mem_flatMap, List.mem_cons, List.not_mem_nil, or_false] at h ⊢
      grind
    unfold focusIn at h
    split at h
    · rename_i inner rebuildFirst found
      cases h
      obtain ⟨⟨self, others, links⟩, bare, mem⟩ := place_of_focus found
      refine ⟨⟨by rw [self], tableLinks rest ++ others, fun replaced => ?_⟩, fun replaced => ?_,
        mem_cons (.inl mem)⟩
      · rw [tableLinks_cons, List.append_assoc]
        exact List.perm_append_comm.trans ((links replaced).append_left _)
      · simp [bare replaced]
    · split at h
      · rename_i inner rebuildRest found
        cases h
        obtain ⟨⟨self, others, links⟩, bare, mem⟩ := ih found
        refine ⟨⟨by rw [self], joinLinks table.joins ++ others, fun replaced => ?_⟩,
          fun replaced => ?_, mem_cons (.inr mem)⟩
        · rw [tableLinks_cons, List.append_assoc]
          exact (links replaced).append_left _
        · simp [bare replaced]
      · cases h

end Table

namespace Join

theorem mem_of_find? {member : String} {joins : List Join} {join : Join}
    (h : find? member joins = some join) : join ∈ joins ∧ join.member = member := by
  induction joins with
  | nil => cases h
  | cons first rest ih =>
    unfold find? at h
    split at h
    · cases h
      exact ⟨List.mem_cons_self, by assumption⟩
    · exact ⟨List.mem_cons_of_mem _ (ih h).1, (ih h).2⟩

theorem put_of_find? {member : String} {joins : List Join} {join : Join}
    (h : find? member joins = some join) : put join joins = joins := by
  have hm := (mem_of_find? h).2
  subst hm
  induction joins with
  | nil => cases h
  | cons first rest ih =>
    unfold find? at h
    split at h
    · cases h
      simp [put]
    · rename_i hne
      simp [put, hne, ih h]

/-- A join that was just added is replaced where it stands. -/
theorem put_append {member : String} {joins : List Join} {join added : Join}
    (h : find? member joins = none) (hm : join.member = member) (ha : added.member = member) :
    put join (joins ++ [added]) = joins ++ [join] := by
  induction joins with
  | nil => simp [put, hm, ha]
  | cons first rest ih =>
    unfold find? at h
    split at h
    · cases h
    · rename_i hne
      simp [put, hm, hne, ih h]

theorem link_mem_joinLinks {join : Join} {joins : List Join} (h : join ∈ joins) :
    join.link ∈ joinLinks joins := by
  induction joins with
  | nil => cases h
  | cons first rest ih =>
    rw [joinLinks]
    rcases List.mem_cons.mp h with rfl | h
    · cases join
      exact List.mem_append_left _ List.mem_cons_self
    · exact List.mem_append_right _ (ih h)

end Join

theorem Link.resolve_resolved (mapping : Mapping) {link : Link}
    (h : ∀ origin member, link ≠ .unresolved origin member) :
    ∃ target : JoinTarget, target.link = link ∧ link.resolve mapping = pure target := by
  cases link with
  | unresolved origin member => exact absurd rfl (h origin member)
  | resolved source leftKey rightKey => exact ⟨⟨source, leftKey, rightKey⟩, rfl, rfl⟩

/-- The links of what stands at a place are links of the whole. -/
theorem Place.link_mem {α : Type} {links : α → List Link} {whole : α} {joins : List Join}
    {rebuild : List Join → α} (place : Place links whole joins rebuild) {join : Join}
    (h : join ∈ joins) : join.link ∈ links whole := by
  obtain ⟨self, others, rebuilt⟩ := place
  rw [← self]
  exact (rebuilt joins).mem_iff.mpr (List.mem_append_right _ (Join.link_mem_joinLinks h))

/-- A join that is put behind what stands at a place adds its links to the whole. -/
theorem Place.links_append {α : Type} {links : α → List Link} {whole : α} {joins : List Join}
    {rebuild : List Join → α} (place : Place links whole joins rebuild) (join : Join) :
    (links (rebuild (joins ++ [join]))).Perm (links whole ++ join.links) := by
  obtain ⟨self, others, rebuilt⟩ := place
  refine (rebuilt _).trans ?_
  rw [joinLinks_append, ← List.append_assoc]
  refine List.Perm.append ?_ (by simp [joinLinks])
  rw [← self]
  exact (rebuilt joins).symm

theorem Entity.navigate_apply (mapping : Mapping) (e : Entity) (member : String)
    (tables : List Table) :
    e.navigate mapping member tables =
      match Table.focusIn e.tableAlias tables with
      | none => throw (.unsupportedExpression .navigation (.navigation member e.tableAlias))
      | some (joins, rebuild) => do
        let place := Join.getOrAdd member .left (.unresolved e member) joins
        let target ← place.1.link.resolve mapping
        let row ← target.source.row mapping.schema .joinedSourceLeftUnresolved
        return (row, rebuild (Join.put { place.1 with link := target.link } place.2)) := by
  unfold navigate
  rw [Joining.get_bind]
  cases Table.focusIn e.tableAlias tables with
  | none => rfl
  | some place => exact Joining.liftSupply_bind _ _ tables

/-- Following a member finds the place that belongs to the alias, and there uses the join through the
member or adds one at the end. -/
theorem Entity.navigate_cases {schema : Schema} {e : Entity} {member : String}
    {tables tables' : List Table} {f f' : Fresh} {row : Expr} (linked : Linked tables)
    (h : e.navigate (Mapping.ofSchema schema) member tables f = .ok ((row, tables'), f')) :
    ∃ joins rebuild, Table.focusIn e.tableAlias tables = some (joins, rebuild) ∧
      ∃ target : JoinTarget, target.source.row schema .joinedSourceLeftUnresolved = .ok row ∧
        ((∃ join, Join.find? member joins = some join ∧ join.link = target.link ∧
            tables' = tables ∧ f' = f) ∨
          (Join.find? member joins = none ∧
            (Mapping.ofSchema schema).join e member f = .ok (target, f') ∧
            tables' = rebuild (joins ++ [⟨member, .left, target.link, []⟩]))) := by
  rw [navigate_apply] at h
  split at h
  · cases h
  · rename_i joins rebuild found
    refine ⟨joins, rebuild, found, ?_⟩
    obtain ⟨place, -, -⟩ := Table.place_of_focusIn found
    obtain ⟨target, f₁, resolved, h⟩ := Supply.bind_eq_ok.mp h
    obtain ⟨row', f₂, hrow, h⟩ := Supply.bind_eq_ok.mp h
    obtain ⟨exposed, rfl⟩ := Supply.lift_eq_ok.mp hrow
    obtain ⟨hr, rfl⟩ := Supply.pure_eq_ok.mp h
    obtain ⟨rfl, rfl⟩ := Prod.mk.inj hr
    refine ⟨target, exposed, ?_⟩
    unfold Join.getOrAdd at resolved ⊢
    cases hf : Join.find? member joins with
    | some join =>
      -- The join is mapped already, so putting it back changes nothing.
      rw [hf] at resolved
      have hlink := place.link_mem (Join.mem_of_find? hf).1
      obtain ⟨target', hl, hr⟩ := Link.resolve_resolved (Mapping.ofSchema schema) (linked _ hlink)
      obtain ⟨rfl, rfl⟩ := Supply.pure_eq_ok.mp (hr ▸ resolved)
      refine .inl ⟨join, rfl, hl.symm, ?_, rfl⟩
      have unchanged : ({ join with link := target'.link } : Join) = join := by
        rw [hl]
        cases join
        rfl
      dsimp only
      rw [unchanged, Join.put_of_find? hf, place.rebuild_self]
    | none =>
      rw [hf] at resolved
      refine .inr ⟨rfl, resolved, ?_⟩
      dsimp only
      rw [Join.put_append hf rfl rfl]

/-- Following a member uses the join that is there, or adds one under a fresh alias. -/
theorem Entity.navigate_eq_ok {schema : Schema} {e : Entity} {member : String}
    {tables tables' : List Table} {f f' : Fresh} {row : Expr} (linked : Linked tables)
    (h : e.navigate (Mapping.ofSchema schema) member tables f = .ok ((row, tables'), f')) :
    e.tableAlias ∈ tableAliases tables ∧ ∃ target : JoinTarget,
      target.source.row schema .joinedSourceLeftUnresolved = .ok row ∧
      ((tables' = tables ∧ f' = f ∧ target.link ∈ tableLinks tables) ∨
        (Mapping.ofSchema schema).join e member f = .ok (target, f') ∧
          tables'.map Table.bare = tables.map Table.bare ∧
          (tableLinks tables').Perm (tableLinks tables ++ [target.link])) := by
  obtain ⟨joins, rebuild, found, target, exposed, step⟩ := navigate_cases linked h
  obtain ⟨place, bare, mem⟩ := Table.place_of_focusIn found
  refine ⟨mem, target, exposed, ?_⟩
  rcases step with ⟨join, hf, hl, rfl, rfl⟩ | ⟨-, joined, rfl⟩
  · exact .inl ⟨rfl, rfl, hl ▸ place.link_mem (Join.mem_of_find? hf).1⟩
  · exact .inr ⟨joined, bare _, place.links_append ⟨member, .left, target.link, []⟩⟩

end Comprehension.Sql
