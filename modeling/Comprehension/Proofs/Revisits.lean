import Comprehension.Proofs.Separation

/-!
Resolving an expression again. What is resolved twice in one statement, as the key of a group is,
finds the joins that it has added the first time. If no statement stands in it, the second result is
the first one: no join is added and no name is drawn.
-/
namespace Comprehension.Sql

namespace Join

/-- The link of the join through a member, if there is one. -/
def link? (member : String) (joins : List Join) : Option Link := (find? member joins).map link

/-- The joins that hang off the first join of a list that has an alias, itself or below. -/
def hanging (tableAlias : String) (joins : List Join) : Option (List Join) :=
  (focusIn tableAlias joins).map Prod.fst

end Join

/-- The joins that hang off the table with an alias or off a table joined to it. -/
def Table.hanging (tableAlias : String) (tables : List Table) : Option (List Join) :=
  (focusIn tableAlias tables).map Prod.fst

/-- The link by which a member is followed from the table or join with an alias. -/
def linkFrom (tables : List Table) (tableAlias member : String) : Option Link :=
  (Table.hanging tableAlias tables).bind (Join.link? member)

/-- Whether all members that can be followed without a new join lead on as before. -/
def Retains (tables tables' : List Table) : Prop :=
  ∀ tableAlias member link, linkFrom tables tableAlias member = some link →
    linkFrom tables' tableAlias member = some link

theorem Retains.refl (tables : List Table) : Retains tables tables := fun _ _ _ h => h

theorem Retains.trans {tables tables₁ tables' : List Table} (h : Retains tables tables₁)
    (h' : Retains tables₁ tables') : Retains tables tables' :=
  fun _ _ _ found => h' _ _ _ (h _ _ _ found)

/-- A place that is looked for in two trees is in neither, or in both with all the first's links. -/
inductive Refound : Option (List Join) → Option (List Join) → Prop where
  | none : Refound none none
  | some {joins joins' : List Join} (links : ∀ member link, Join.link? member joins = some link →
      Join.link? member joins' = some link) : Refound (some joins) (some joins')

namespace Refound

variable {o o' p p' : Option (List Join)}

theorem self (o : Option (List Join)) : Refound o o := by
  cases o with
  | none => exact .none
  | some joins => exact .some fun _ _ => id

theorem or (h : Refound o o') (h' : Refound p p') : Refound (o.or p) (o'.or p') := by
  cases h with
  | none => exact h'
  | some links => exact .some links

end Refound

namespace Join

variable {a b own member : String} {leaf : Join}

theorem focus_eq (a : String) (join : Join) :
    (join.focus a).map Prod.fst =
      if join.link.tableAlias? = some a then some join.joins else hanging a join.joins := by
  obtain ⟨member, kind, link, joins⟩ := join
  rw [focus, hanging]
  split
  · rfl
  · cases focusIn a joins <;> rfl

theorem hanging_cons (a : String) (join : Join) (rest : List Join) :
    hanging a (join :: rest) =
      (if join.link.tableAlias? = some a then some join.joins else hanging a join.joins).or
        (hanging a rest) := by
  rw [← focus_eq, hanging, hanging, focusIn]
  cases join.focus a with
  | some place => rfl
  | none => cases focusIn a rest <;> rfl

theorem link?_cons (member : String) (join : Join) (rest : List Join) :
    link? member (join :: rest) =
      if join.member = member then some join.link else link? member rest := by
  rw [link?, find?]
  split <;> rfl

theorem link?_append {joins : List Join} {link : Link} (others : List Join)
    (h : link? member joins = some link) :
    link? member (joins ++ others) = some link := by
  induction joins with
  | nil => cases h
  | cons join rest ih =>
    rw [List.cons_append, link?_cons]
    rw [link?_cons] at h
    split
    · rwa [if_pos (by assumption)] at h
    · rw [if_neg (by assumption)] at h
      exact ih h

/-- A join that leads elsewhere and has none below it changes nothing for an alias. -/
theorem refound_append (named : leaf.link.tableAlias? = some own) (bare : leaf.joins = [])
    (other : a ≠ own) (joins : List Join) :
    Refound (hanging a joins) (hanging a (joins ++ [leaf])) := by
  induction joins with
  | nil =>
    rw [List.nil_append, hanging_cons, named, if_neg (by simpa using Ne.symm other), bare]
    exact .none
  | cons join rest ih =>
    rw [List.cons_append, hanging_cons, hanging_cons]
    exact (Refound.self _).or ih

mutual

/-- What is put below a join leaves its member and its link, and is found there. -/
theorem focus_rebuild {join : Join} {joins : List Join} {rebuild : List Join → Join}
    (h : join.focus b = some (joins, rebuild)) (replaced : List Join) :
    (rebuild replaced).member = join.member ∧ (rebuild replaced).link = join.link ∧
      ((rebuild replaced).focus b).map Prod.fst = some replaced := by
  obtain ⟨member, kind, link, tree⟩ := join
  unfold focus at h
  split at h
  · rename_i named
    cases h
    refine ⟨rfl, rfl, ?_⟩
    rw [focus_eq, if_pos named]
  · rename_i other
    split at h
    · rename_i inner rebuildBelow found
      cases h
      refine ⟨rfl, rfl, ?_⟩
      rw [focus_eq, if_neg other]
      exact (focusIn_rebuild found replaced).2
    · cases h

/-- What is put below one of some joins leaves the links of these, and is found there. -/
theorem focusIn_rebuild {tree joins : List Join} {rebuild : List Join → List Join}
    (h : focusIn b tree = some (joins, rebuild)) (replaced : List Join) :
    (∀ member, link? member (rebuild replaced) = link? member tree) ∧
      hanging b (rebuild replaced) = some replaced := by
  cases tree with
  | nil => cases h
  | cons join rest =>
    unfold focusIn at h
    split at h
    · rename_i inner rebuildFirst found
      cases h
      obtain ⟨member, link, placed⟩ := focus_rebuild found replaced
      refine ⟨fun other => ?_, ?_⟩
      · rw [link?_cons, link?_cons, member, link]
      · rw [hanging_cons, ← focus_eq, placed]
        rfl
    · rename_i missing
      split at h
      · rename_i inner rebuildRest found
        cases h
        obtain ⟨links, placed⟩ := focusIn_rebuild found replaced
        refine ⟨fun other => ?_, ?_⟩
        · rw [link?_cons, link?_cons, links]
        · rw [hanging_cons, ← focus_eq, missing, placed]
          rfl
      · cases h

end

mutual

theorem refound_focus (named : leaf.link.tableAlias? = some own) (bare : leaf.joins = [])
    (other : a ≠ own) {join : Join} {joins : List Join} {rebuild : List Join → Join}
    (h : join.focus b = some (joins, rebuild)) :
    Refound ((join.focus a).map Prod.fst) (((rebuild (joins ++ [leaf])).focus a).map Prod.fst) := by
  obtain ⟨member, kind, link, tree⟩ := join
  rw [focus_eq, focus_eq]
  unfold focus at h
  split at h
  · cases h
    dsimp only
    split
    · exact .some fun _ _ => link?_append _
    · exact refound_append named bare other _
  · split at h
    · rename_i inner rebuildBelow found
      cases h
      dsimp only
      split
      · exact .some fun member link found' => by
          rwa [(focusIn_rebuild found _).1]
      · exact refound_focusIn named bare other found
    · cases h

/-- A join that is added below an alias under a name of its own leaves all other places. -/
theorem refound_focusIn (named : leaf.link.tableAlias? = some own) (bare : leaf.joins = [])
    (other : a ≠ own) {tree joins : List Join} {rebuild : List Join → List Join}
    (h : focusIn b tree = some (joins, rebuild)) :
    Refound (hanging a tree) (hanging a (rebuild (joins ++ [leaf]))) := by
  cases tree with
  | nil => cases h
  | cons join rest =>
    unfold focusIn at h
    split at h
    · rename_i inner rebuildFirst found
      cases h
      rw [hanging_cons, hanging_cons, ← focus_eq, ← focus_eq]
      exact (refound_focus named bare other found).or (.self _)
    · split at h
      · rename_i inner rebuildRest found
        cases h
        rw [hanging_cons, hanging_cons]
        exact (Refound.self _).or (refound_focusIn named bare other found)
      · cases h

end

end Join

namespace Table

variable {a b own : String} {leaf : Join} {joins : List Join} {tables : List Table}

theorem focus_eq (a : String) (table : Table) :
    (table.focus a).map Prod.fst =
      if table.source.tableAlias? = some a then some table.joins
      else Join.hanging a table.joins := by
  rw [focus, Join.hanging]
  split
  · rfl
  · cases Join.focusIn a table.joins <;> rfl

theorem hanging_cons (a : String) (table : Table) (rest : List Table) :
    hanging a (table :: rest) = ((table.focus a).map Prod.fst).or (hanging a rest) := by
  rw [hanging, hanging, focusIn]
  cases table.focus a with
  | some place => rfl
  | none => cases focusIn a rest <;> rfl

theorem focus_rebuild {table : Table} {rebuild : List Join → Table}
    (h : table.focus b = some (joins, rebuild)) (replaced : List Join) :
    ((rebuild replaced).focus b).map Prod.fst = some replaced := by
  unfold focus at h
  split at h
  · rename_i named
    cases h
    rw [focus_eq, if_pos named]
  · rename_i other
    split at h
    · rename_i inner rebuildBelow found
      cases h
      rw [focus_eq, if_neg other]
      exact (Join.focusIn_rebuild found replaced).2
    · cases h

theorem hanging_rebuild {rebuild : List Join → List Table}
    (h : focusIn b tables = some (joins, rebuild)) (replaced : List Join) :
    hanging b (rebuild replaced) = some replaced := by
  induction tables generalizing joins rebuild with
  | nil => cases h
  | cons table rest ih =>
    unfold focusIn at h
    split at h
    · rename_i inner rebuildFirst found
      cases h
      rw [hanging_cons, focus_rebuild found]
      rfl
    · rename_i missing
      split at h
      · rename_i inner rebuildRest found
        cases h
        rw [hanging_cons, missing, ih found]
        rfl
      · cases h

theorem refound_focus (named : leaf.link.tableAlias? = some own) (bare : leaf.joins = [])
    (other : a ≠ own) {table : Table} {rebuild : List Join → Table}
    (h : table.focus b = some (joins, rebuild)) :
    Refound ((table.focus a).map Prod.fst)
      (((rebuild (joins ++ [leaf])).focus a).map Prod.fst) := by
  rw [focus_eq, focus_eq]
  unfold focus at h
  split at h
  · cases h
    dsimp only
    split
    · exact .some fun _ _ => Join.link?_append _
    · exact Join.refound_append named bare other _
  · split at h
    · rename_i inner rebuildBelow found
      cases h
      dsimp only
      split
      · exact .some fun member link found' => by
          rwa [(Join.focusIn_rebuild found _).1]
      · exact Join.refound_focusIn named bare other found
    · cases h

theorem refound_focusIn (named : leaf.link.tableAlias? = some own) (bare : leaf.joins = [])
    (other : a ≠ own) {rebuild : List Join → List Table}
    (h : focusIn b tables = some (joins, rebuild)) :
    Refound (hanging a tables) (hanging a (rebuild (joins ++ [leaf]))) := by
  induction tables generalizing joins rebuild with
  | nil => cases h
  | cons table rest ih =>
    unfold focusIn at h
    split at h
    · rename_i inner rebuildFirst found
      cases h
      rw [hanging_cons, hanging_cons]
      exact (refound_focus named bare other found).or (.self _)
    · split at h
      · rename_i inner rebuildRest found
        cases h
        rw [hanging_cons, hanging_cons]
        exact (Refound.self _).or (ih found)
      · cases h

end Table

variable {schema : Schema} {native : Bool}

section Navigation

variable {e : Entity} {member : String} {row : Expr} {tables tables' : List Table} {f f' : Fresh}

/-- A join under a fresh alias leaves all links, and is linked itself. -/
theorem retains_rebuild {a own : String} {joins : List Join} {rebuild : List Join → List Table}
    {join : Join} (found : Table.focusIn a tables = some (joins, rebuild))
    (named : join.link.tableAlias? = some own) (bare : join.joins = [])
    (fresh : own ∉ tableAliases tables) : Retains tables (rebuild (joins ++ [join])) := by
  intro b member link linked
  obtain ⟨place, placed, linked⟩ := Option.bind_eq_some_iff.mp linked
  obtain ⟨⟨joins', rebuild'⟩, located, rfl⟩ := Option.map_eq_some_iff.mp placed
  have other : b ≠ own := by
    rintro rfl
    exact fresh (Table.place_of_focusIn located).2.2
  have refound := Table.refound_focusIn named bare other found
  rw [placed] at refound
  rw [linkFrom]
  generalize Table.hanging b (rebuild (joins ++ [join])) = later at refound
  cases refound with
  | some links => exact links member link linked

/-- A member that has been followed is linked, and all other links are left. -/
theorem Entity.navigate_retains (tidy : Tidy f tables)
    (h : e.navigate (Mapping.ofSchema schema) member tables f = .ok ((row, tables'), f')) :
    Tidy f' tables' ∧ Retains tables tables' ∧ ∃ target : JoinTarget,
      linkFrom tables' e.tableAlias member = some target.link ∧
        target.source.row schema .joinedSourceLeftUnresolved = .ok row := by
  obtain ⟨joins, rebuild, found, target, exposed, step⟩ := navigate_cases tidy.linked h
  rcases step with ⟨join, there, link, rfl, rfl⟩ | ⟨missing, joined, rfl⟩
  · refine ⟨tidy, .refl _, target, ?_, exposed⟩
    simp [linkFrom, Table.hanging, found, Join.link?, there, link]
  · obtain ⟨place, bare, -⟩ := Table.place_of_focusIn found
    have linked := place.links_append ⟨member, .left, target.link, []⟩
    have new := Fresh.new_named (show "t" ∈ Fresh.stems by simp [Fresh.stems]) f
    obtain ⟨itemType, tableName, left, right, -, -, rfl, rfl⟩ := Mapping.join_eq_ok joined
    refine ⟨(tidy.joined (bare _) linked rfl).2, ?_, _, ?_, exposed⟩
    · exact retains_rebuild found rfl rfl fun mem => new.1 (tidy.issued _ mem)
    · rw [linkFrom, Table.hanging_rebuild found, Option.bind_some, Join.link?,
        Join.find?_append_of_eq_none member _ joins missing rfl]
      rfl

/-- A member that is linked is followed without a change. -/
theorem Entity.navigate_linked {target : JoinTarget}
    (found : linkFrom tables e.tableAlias member = some target.link)
    (exposed : target.source.row schema .joinedSourceLeftUnresolved = .ok row) :
    e.navigate (Mapping.ofSchema schema) member tables f = .ok ((row, tables), f) := by
  obtain ⟨_, placed, found⟩ := Option.bind_eq_some_iff.mp found
  obtain ⟨⟨joins, rebuild⟩, located, rfl⟩ := Option.map_eq_some_iff.mp placed
  obtain ⟨join, there, link⟩ := Option.map_eq_some_iff.mp found
  obtain ⟨place, -, -⟩ := Table.place_of_focusIn located
  have unchanged : ({ join with link := target.link } : Join) = join := by
    rw [← link]
    cases join
    rfl
  have kept : rebuild (Join.put { join with link := target.link } joins) = tables := by
    rw [unchanged, Join.put_of_find? there, place.rebuild_self]
  have mapped : join.link.resolve (Mapping.ofSchema schema) = pure target := by
    rw [link]
    rfl
  have again : Join.getOrAdd member .left (.unresolved e member) joins = (join, joins) := by
    simp [Join.getOrAdd, there]
  rw [navigate_apply, located]
  dsimp only
  rw [again, mapped, pure_bind, kept]
  exact Supply.bind_eq_ok.mpr ⟨row, f, Supply.lift_eq_ok.mpr ⟨exposed, rfl⟩, rfl⟩

end Navigation

namespace Joining

variable {α β : Type}

/-- What is left by a run that can be done again: wherever its links are still there, the same
result comes up, and neither a join is added nor a name drawn. -/
structure Repeatable (Q : α → Prop) (x : Joining α) (tables : List Table) (a : α)
    (tables' : List Table) (f' : Fresh) : Prop where
  result : Q a
  tidy : Tidy f' tables'
  retains : Retains tables tables'
  again : ∀ later g, Retains tables' later → x later g = .ok ((a, later), g)

/-- A computation all of whose runs can be done again. -/
def Repeats (Q : α → Prop) (x : Joining α) : Prop :=
  ∀ tables f a tables' f', Tidy f tables → x tables f = .ok ((a, tables'), f') →
    Repeatable Q x tables a tables' f'

namespace Repeats

variable {Q : α → Prop} {R : β → Prop} {x : Joining α}

protected theorem pure {a : α} (h : Q a) : Repeats Q (Pure.pure a : Joining α) := by
  intro tables f b tables' f' tidy run
  obtain ⟨rfl, rfl, rfl⟩ := pure_eq_ok.mp run
  exact ⟨h, tidy, .refl tables, fun later g _ => rfl⟩

protected theorem bind {k : α → Joining β} (hx : Repeats Q x) (hk : ∀ a, Q a → Repeats R (k a)) :
    Repeats R (x >>= k) := by
  intro tables f b tables' f' tidy run
  obtain ⟨a, tables₁, f₁, first, rest⟩ := bind_eq_ok.mp run
  have before := hx _ _ _ _ _ tidy first
  have behind := hk a before.result _ _ _ _ _ before.tidy rest
  refine ⟨behind.result, behind.tidy, before.retains.trans behind.retains, fun later g kept => ?_⟩
  exact bind_eq_ok.mpr
    ⟨a, later, g, before.again later g (behind.retains.trans kept), behind.again later g kept⟩

protected theorem lift {x : Except Error α} (h : ∀ a, x = .ok a → Q a) :
    Repeats Q (liftM x : Joining α) := by
  intro tables f a tables' f' tidy run
  obtain ⟨done, rfl, rfl⟩ := lift_eq_ok.mp run
  exact ⟨h a done, tidy, .refl tables, fun later g _ => lift_eq_ok.mpr ⟨done, rfl, rfl⟩⟩

protected theorem throw (e : Error) : Repeats Q (throw e : Joining α) :=
  fun _ _ _ _ _ _ run => (throw_ne_ok.mp run).elim

end Repeats

end Joining

namespace Node

/-- No statement and no name. An entity of a statement has the name that it is exposed under. -/
def IsFlat : Node → Prop
  | .expression e =>
    (Node.expression e).IsReady ∧
      ∀ tableAlias name entity, e = .entityReference tableAlias name entity → entity.name = name
  | .statement _ => False

/-- Whether a tree holds no statement. -/
def Flat (n : Node) : Prop := n.Everywhere IsFlat

end Node

namespace Expr

/-- Whether an expression is a flat tree. -/
def IsFlat (e : Expr) : Prop := (Node.expression e).Flat

variable {e e' left right left' right' : Expr}

theorem isFlat_leaf (children : (Node.expression e).children = [])
    (ready : (Node.expression e).IsReady) (own : e.kind ≠ .entityReference) : e.IsFlat := by
  refine .intro ⟨ready, ?_⟩ (by simp [children])
  rintro tableAlias name entity rfl
  exact absurd rfl own

theorem isFlat_column (c : Column) : (column c).IsFlat :=
  isFlat_leaf rfl ⟨nofun, rfl⟩ nofun

theorem isFlat_constant (value : Value) (type : ValueType) : (constant value type).IsFlat :=
  isFlat_leaf rfl ⟨nofun, rfl⟩ nofun

theorem isFlat_int (n : Int) : (int n).IsFlat := isFlat_leaf rfl ⟨nofun, rfl⟩ nofun

theorem isFlat_reference {tableAlias : String} {name : Option String} {entity : Entity}
    (h : entity.name = name) : (entityReference tableAlias name entity).IsFlat := by
  refine .intro ⟨⟨nofun, rfl⟩, ?_⟩ (List.forall_mem_nil _)
  rintro _ _ _ ⟨⟩
  exact h

theorem isFlat_composite (composite : e.kind.isComposite = true)
    (slots : ∀ slot ∈ e.slots, slot.2.IsFlat) : e.IsFlat := by
  refine .ofSlots ?_ ⟨⟨?_, ?_⟩, ?_⟩ slots
  · rintro s rfl
    cases composite
  · intro named
    rw [named] at composite
    cases composite
  · cases e with
    | entityConstant => cases composite
    | _ => rfl
  · rintro _ _ _ rfl
    cases composite

theorem isFlat_binary {op : BinaryOp} {type : ValueType} (hl : left.IsFlat) (hr : right.IsFlat) :
    (binary op left right type).IsFlat := by
  refine .ofSlots (by simp) ⟨⟨nofun, rfl⟩, nofun⟩ ?_
  exact List.forall_mem_cons.mpr ⟨hl, List.forall_mem_singleton.mpr hr⟩

theorem isFlat_of_adapted {position : Position} (h : e.IsFlat)
    (fits : adapted native position e = .ok e') : e'.IsFlat := by
  rcases adapted_cases fits with rfl | ⟨-, rfl⟩ | ⟨-, -, rfl⟩ | ⟨value, -, rfl⟩
  · exact h
  · refine isFlat_composite rfl ?_
    simpa [asValue, slots] using ⟨h, isFlat_int 1, isFlat_int 0⟩
  · exact isFlat_binary h (isFlat_int 1)
  · exact isFlat_binary (isFlat_int 1) (isFlat_int 1)

theorem isFlat_of_identity (h : e.IsFlat) (hi : e.identity = .ok e') : e'.IsFlat := by
  rcases identity_eq_ok h.here.1 hi with ⟨_, -, rfl⟩ | ⟨_, _, _, -, rfl⟩ | ⟨_, _, _, _, -, rfl⟩ |
    ⟨rfl, -⟩
  · exact isFlat_column _
  · exact isFlat_column _
  · exact isFlat_constant _ _
  · exact h

theorem isFlat_of_identities {op : BinaryOp} (hl : left.IsFlat) (hr : right.IsFlat)
    (hi : identities op left right = .ok (left', right')) : left'.IsFlat ∧ right'.IsFlat := by
  rcases identities_eq_ok hi with ⟨-, hlk, hrk⟩ | ⟨-, rfl, rfl⟩
  · exact ⟨isFlat_of_identity hl hlk, isFlat_of_identity hr hrk⟩
  · exact ⟨hl, hr⟩

theorem isFlat_of_memberOf {member : String} (h : e.IsFlat)
    (mapped : e.memberOf schema member = .ok e') : e'.IsFlat := by
  rcases memberOf_eq_ok h.here.1 mapped with
    ⟨entity, type, rfl⟩ | ⟨c, rfl, -⟩ | ⟨members, n, hn, rfl, rfl⟩
  · exact isFlat_leaf rfl ⟨nofun, rfl⟩ nofun
  · exact isFlat_column c
  · exact List.forall_mem_map.mp (fun _ hs => h.slot hs) n hn

end Expr

theorem Named.isFlat_exposed (n : Named) (tableAlias : String) : (n.exposed tableAlias).IsFlat := by
  unfold Named.exposed
  split
  · exact Expr.isFlat_reference rfl
  · exact Expr.isFlat_reference rfl
  · exact Expr.isFlat_column _

/-- Rows hold no statements, even if they are rows of one. -/
theorem Source.isFlat_row {source : Source} {unresolved : String → Violation} {row : Expr}
    (h : source.row schema unresolved = .ok row) : row.IsFlat := by
  cases source with
  | unresolved itemType => cases h
  | table itemType tableName tableAlias =>
    obtain ⟨e, -, h⟩ := Outcome.bind_eq_ok.mp h
    obtain rfl := Outcome.pure_eq_ok.mp h
    exact Expr.isFlat_leaf rfl ⟨nofun, rfl⟩ nofun
  | statement tableAlias s =>
    obtain rfl := Except.ok.inj h
    cases hp : s.projection with
    | named n => exact n.isFlat_exposed tableAlias
    | compound members =>
      refine Expr.isFlat_composite rfl fun slot hs => ?_
      obtain ⟨exposed, he, rfl⟩ := List.mem_map.mp hs
      obtain ⟨n, -, rfl⟩ := List.mem_map.mp he
      exact n.isFlat_exposed tableAlias
    | entity | entityReference => exact Expr.isFlat_reference rfl
    | _ => exact Expr.isFlat_column _

/-- Whether all rows in scope are flat. -/
def FlatRows (rows : Rows) : Prop := ∀ entry ∈ rows, entry.2.IsFlat

/-- Whether a computation that yields a flat expression can be done again. -/
abbrev Joining.RepeatsFlat (x : Joining Expr) : Prop := Joining.Repeats Expr.IsFlat x

/-- Further passes over flat trees can be done again. -/
def Reentry.RepeatsFlat (again : Reentry) : Prop :=
  ∀ rows position e, FlatRows rows → e.IsFlat →
    Joining.RepeatsFlat (again.expression rows position e)

section Resolution

variable {again : Reentry}

theorem Entity.navigate_repeats (e : Entity) (member : String) :
    Joining.RepeatsFlat (e.navigate (Mapping.ofSchema schema) member) := by
  intro tables f row tables' f' tidy run
  obtain ⟨tidy', retains, target, linked, exposed⟩ := navigate_retains tidy run
  exact ⟨Source.isFlat_row exposed, tidy', retains, fun later g kept =>
    navigate_linked (kept _ _ _ linked) exposed⟩

theorem Resolver.fit_repeats {mapping : Mapping} {position : Position} {x : Joining Expr}
    (h : Joining.RepeatsFlat x) :
    Joining.RepeatsFlat (Resolver.fit ⟨mapping, native⟩ position x) :=
  h.bind fun _ flat => .lift fun _ fits => Expr.isFlat_of_adapted flat fits

mutual

/-- A flat expression is resolved to a flat one, and can be resolved again. -/
theorem Expr.resolve_repeats (ha : again.RepeatsFlat) (e : Expr) {rows : Rows}
    (flatRows : FlatRows rows) (flat : e.IsFlat) (position : Position) :
    Joining.RepeatsFlat (e.resolve ⟨Mapping.ofSchema schema, native⟩ again rows position) := by
  cases e with
  | column | literal | customText | entity | entityReference | entityConstant => exact .pure flat
  | constant value type =>
    refine .lift fun e mapped => ?_
    rcases Schema.constant_eq_ok mapped with ⟨_, _, _, -, rfl⟩ | ⟨-, rfl⟩
    · exact Expr.isFlat_leaf rfl ⟨nofun, rfl⟩ nofun
    · exact Expr.isFlat_constant _ _
  | tableReference key type =>
    simp only [Expr.resolve]
    cases found : rows.lookup key with
    | some row =>
      obtain ⟨before, after, rfl, -⟩ := List.lookup_eq_some_iff.mp found
      exact .pure (flatRows _ (List.mem_append_right _ List.mem_cons_self))
    | none => exact .throw _
  | member source name type =>
    simp only [Expr.resolve]
    have owner := source.resolve_repeats ha flatRows (flat.slot List.mem_cons_self) .value
    refine (Resolver.fit_repeats owner).bind fun source' flat' => ?_
    refine .bind (.lift fun found mapped => Expr.isFlat_of_memberOf flat' mapped) ?_
    exact fun found part => ha rows position found flatRows part
  | navigation entity member type => exact entity.navigate_repeats member
  | call c => exact .throw _
  | binary op left right type =>
    simp only [Expr.resolve]
    have first := left.resolve_repeats ha flatRows (flat.slot List.mem_cons_self) .value
    have second := right.resolve_repeats ha flatRows
      (flat.slot (List.mem_cons_of_mem _ List.mem_cons_self)) .value
    refine (Resolver.fit_repeats first).bind fun left hl => ?_
    refine (Resolver.fit_repeats second).bind fun right hr => ?_
    refine .bind (.lift (Q := fun pair : Expr × Expr => pair.1.IsFlat ∧ pair.2.IsFlat)
      fun pair compared => Expr.isFlat_of_identities hl hr compared) fun pair compared => ?_
    refine (Resolver.fit_repeats (.pure compared.1)).bind fun left hl => ?_
    refine (Resolver.fit_repeats (.pure compared.2)).bind fun right hr => ?_
    exact .pure (Expr.isFlat_binary hl hr)
  | like expression pattern =>
    simp only [Expr.resolve]
    have first := expression.resolve_repeats ha flatRows (flat.slot List.mem_cons_self) .singleValue
    have second := pattern.resolve_repeats ha flatRows
      (flat.slot (List.mem_cons_of_mem _ List.mem_cons_self)) .singleValue
    refine (Resolver.fit_repeats first).bind fun expression he => ?_
    refine (Resolver.fit_repeats second).bind fun pattern hp => .pure ?_
    exact Expr.isFlat_composite rfl (by simpa [Expr.slots] using ⟨he, hp⟩)
  | likeEscape value =>
    simp only [Expr.resolve]
    have operand := value.resolve_repeats ha flatRows (flat.slot List.mem_cons_self) .singleValue
    refine (Resolver.fit_repeats operand).bind fun value hv => .pure ?_
    exact Expr.isFlat_composite rfl (by simpa [Expr.slots] using hv)
  | logical op left right =>
    simp only [Expr.resolve]
    have first := left.resolve_repeats ha flatRows (flat.slot List.mem_cons_self) .predicate
    have second := right.resolve_repeats ha flatRows
      (flat.slot (List.mem_cons_of_mem _ List.mem_cons_self)) .predicate
    refine (Resolver.fit_repeats first).bind fun left hl => ?_
    refine (Resolver.fit_repeats second).bind fun right hr => .pure ?_
    exact Expr.isFlat_composite rfl (by simpa [Expr.slots] using ⟨hl, hr⟩)
  | not operand =>
    simp only [Expr.resolve]
    have negated := operand.resolve_repeats ha flatRows (flat.slot List.mem_cons_self) .predicate
    refine (Resolver.fit_repeats negated).bind fun operand ho => .pure ?_
    exact Expr.isFlat_composite rfl (by simpa [Expr.slots] using ho)
  | case branches otherwise type =>
    simp only [Expr.resolve]
    have slots := List.forall_mem_append.mp fun _ hs => flat.slot hs
    have tests := resolveBranches_repeats ha branches flatRows slots.1
    have last := resolveOption_repeats ha otherwise flatRows slots.2
    refine tests.bind fun branches hb => last.bind fun otherwise ho => .pure ?_
    exact Expr.isFlat_composite rfl (List.forall_mem_append.mpr ⟨hb, ho⟩)
  | function name args type isPredicate =>
    simp only [Expr.resolve]
    have below := resolveArgs_repeats ha args flatRows fun _ hs => flat.slot hs
    exact below.bind fun args ha => .pure (Expr.isFlat_composite rfl ha)
  | convert target expression type =>
    simp only [Expr.resolve]
    have operand :=
      expression.resolve_repeats ha flatRows (flat.slot List.mem_cons_self) .singleValue
    refine (Resolver.fit_repeats operand).bind fun expression he => .pure ?_
    exact Expr.isFlat_composite rfl (by simpa [Expr.slots] using he)
  | aggregation function expression type =>
    simp only [Expr.resolve]
    have operand := expression.resolve_repeats ha flatRows (flat.slot List.mem_cons_self)
      (if function = .count then .value else .singleValue)
    refine (Resolver.fit_repeats operand).bind fun expression he => .pure ?_
    exact Expr.isFlat_composite rfl (by simpa [Expr.slots] using he)
  | rowNumber orderings =>
    simp only [Expr.resolve]
    have below := resolveOrderings_repeats ha orderings flatRows fun _ hs => flat.slot hs
    exact below.bind fun orderings ho => .pure (Expr.isFlat_composite rfl ho)
  | named n => exact absurd rfl flat.here.1.1
  | compound members =>
    simp only [Expr.resolve]
    have below := resolveMembers_repeats ha members flatRows fun _ hs => flat.slot hs
    exact below.bind fun members hm => .pure (Expr.isFlat_composite rfl hm)
  | subStatement s => exact (flat.child List.mem_cons_self).here.elim
termination_by structural e

theorem resolveOption_repeats (ha : again.RepeatsFlat) (e : Option Expr) {rows : Rows}
    (flatRows : FlatRows rows) {position : Position}
    (flat : ∀ slot ∈ e.toList.map (position, ·), slot.2.IsFlat) :
    Joining.Repeats (fun found => ∀ slot ∈ found.toList.map (position, ·), slot.2.IsFlat)
      (resolveOption ⟨Mapping.ofSchema schema, native⟩ again rows position e) := by
  cases e with
  | none => exact .pure flat
  | some e =>
    simp only [resolveOption]
    have inner := e.resolve_repeats ha flatRows (flat (position, e) List.mem_cons_self) position
    exact (Resolver.fit_repeats inner).bind fun e he => .pure (List.forall_mem_singleton.mpr he)
termination_by structural e

theorem resolveArgs_repeats (ha : again.RepeatsFlat) (args : List Expr) {rows : Rows}
    (flatRows : FlatRows rows) (flat : ∀ slot ∈ args.map (Position.singleValue, ·), slot.2.IsFlat) :
    Joining.Repeats
      (fun found => ∀ slot ∈ found.map (Position.singleValue, ·), slot.2.IsFlat)
      (resolveArgs ⟨Mapping.ofSchema schema, native⟩ again rows args) := by
  cases args with
  | nil => exact .pure flat
  | cons e rest =>
    obtain ⟨here, below⟩ := List.forall_mem_cons.mp flat
    simp only [resolveArgs]
    have first := e.resolve_repeats ha flatRows here .singleValue
    refine (Resolver.fit_repeats first).bind fun e he => ?_
    refine (resolveArgs_repeats ha rest flatRows below).bind fun rest hr => ?_
    exact .pure (List.forall_mem_cons.mpr ⟨he, hr⟩)
termination_by structural args

theorem resolveBranches_repeats (ha : again.RepeatsFlat) (branches : List (Expr × Expr))
    {rows : Rows} (flatRows : FlatRows rows)
    (flat : ∀ slot ∈ branches.flatMap fun branch =>
      [(Position.predicate, branch.1), (.singleValue, branch.2)], slot.2.IsFlat) :
    Joining.Repeats
      (fun found => ∀ slot ∈ found.flatMap fun branch =>
        [(Position.predicate, branch.1), (.singleValue, branch.2)], slot.2.IsFlat)
      (resolveBranches ⟨Mapping.ofSchema schema, native⟩ again rows branches) := by
  cases branches with
  | nil => exact .pure flat
  | cons branch rest =>
    obtain ⟨test, value⟩ := branch
    obtain ⟨inTest, flat⟩ := List.forall_mem_cons.mp flat
    obtain ⟨inValue, below⟩ := List.forall_mem_cons.mp flat
    simp only [resolveBranches]
    have first := test.resolve_repeats ha flatRows inTest .predicate
    have second := value.resolve_repeats ha flatRows inValue .singleValue
    refine (Resolver.fit_repeats first).bind fun test ht => ?_
    refine (Resolver.fit_repeats second).bind fun value hv => ?_
    refine (resolveBranches_repeats ha rest flatRows below).bind fun rest hr => ?_
    exact .pure (List.forall_mem_cons.mpr ⟨ht, List.forall_mem_cons.mpr ⟨hv, hr⟩⟩)
termination_by structural branches

theorem resolveOrderings_repeats (ha : again.RepeatsFlat) (orderings : List Ordering)
    {rows : Rows} (flatRows : FlatRows rows)
    (flat : ∀ slot ∈ orderings.map fun o => (Position.singleValue, o.expression), slot.2.IsFlat) :
    Joining.Repeats
      (fun found => ∀ slot ∈ found.map fun o => (Position.singleValue, o.expression),
        slot.2.IsFlat)
      (resolveOrderings ⟨Mapping.ofSchema schema, native⟩ again rows orderings) := by
  cases orderings with
  | nil => exact .pure flat
  | cons ordering rest =>
    obtain ⟨e, direction⟩ := ordering
    obtain ⟨here, below⟩ := List.forall_mem_cons.mp flat
    simp only [resolveOrderings]
    have first := e.resolve_repeats ha flatRows here .singleValue
    refine (Resolver.fit_repeats first).bind fun e he => ?_
    refine (resolveOrderings_repeats ha rest flatRows below).bind fun rest hr => ?_
    exact .pure (List.forall_mem_cons.mpr ⟨he, hr⟩)
termination_by structural orderings

theorem resolveMembers_repeats (ha : again.RepeatsFlat) (members : List Named)
    {rows : Rows} (flatRows : FlatRows rows)
    (flat : ∀ slot ∈ members.map fun n => (Position.value, n.expression), slot.2.IsFlat) :
    Joining.Repeats
      (fun found => ∀ slot ∈ found.map fun n => (Position.value, n.expression), slot.2.IsFlat)
      (resolveMembers ⟨Mapping.ofSchema schema, native⟩ again rows members) := by
  cases members with
  | nil => exact .pure flat
  | cons n rest =>
    obtain ⟨name, e⟩ := n
    obtain ⟨here, below⟩ := List.forall_mem_cons.mp flat
    simp only [resolveMembers]
    have first := e.resolve_repeats ha flatRows here .value
    refine (Resolver.fit_repeats first).bind fun e he => ?_
    refine (resolveMembers_repeats ha rest flatRows below).bind fun rest hr => ?_
    exact .pure (List.forall_mem_cons.mpr ⟨he, hr⟩)
termination_by structural members

end

theorem Reentry.upTo_repeats (depth : Nat) :
    (Reentry.upTo ⟨Mapping.ofSchema schema, native⟩ depth).RepeatsFlat := by
  induction depth with
  | zero => exact fun _ _ _ _ _ => .throw _
  | succ depth ih =>
    exact fun rows position e flatRows flat => e.resolve_repeats ih flatRows flat position

end Resolution

/-- What the rules do to the links of the tables that they start from. -/
def Retaining : Judgement → Prop
  | .expression rows _ e tables f _ tables' _ | .fitted rows _ e tables f _ tables' _ =>
    PlainRows rows → (Node.expression e).Ready → Tidy f tables → Clear f tables (.expression e) →
      Retains tables tables'
  | .slots rows slots tables f _ tables' _ =>
    PlainRows rows → (∀ slot ∈ slots, (Node.expression slot.2).Ready) → Tidy f tables →
      (∀ slot ∈ slots, Clear f tables (.expression slot.2)) → Retains tables tables'
  | _ => True

/-- Along a resolution all links are left. -/
theorem Resolved.retaining {j : Judgement} (h : Resolved schema native j) : Retaining j := by
  induction h with
  | leaf | constant | tableReference | subStatement => exact fun _ _ _ _ => .refl _
  | member owner mapped again ihOwner ihAgain =>
    intro plain ready tidy clear
    have sourceReady := ready.slot List.mem_cons_self
    have sourceClear := (Covers.slots _).clear (by simpa using clear) _ List.mem_cons_self
    have separated := owner.separates plain sourceReady tidy sourceClear
    obtain ⟨⟨settled, -⟩, -, -⟩ := owner.settles plain sourceReady tidy.linked
    have found := separated.covers (Expr.covers_of_memberOf settled.ready.here mapped)
    exact (ihOwner plain sourceReady tidy sourceClear).trans
      (ihAgain plain (Expr.ready_of_memberOf settled mapped) found.tidy
        (found.clear _ List.mem_cons_self))
  | navigation followed => exact fun _ _ tidy _ => (Entity.navigate_retains tidy followed).2.1
  | binary first second compared leftFits rightFits ihFirst ihSecond =>
    intro plain ready tidy clear
    have operands := (Covers.slots _).clear (by simpa using clear)
    have leftReady := ready.slot List.mem_cons_self
    have left := first.separates plain leftReady tidy (operands _ List.mem_cons_self)
    exact (ihFirst plain leftReady tidy (operands _ List.mem_cons_self)).trans
      (ihSecond plain (ready.slot (List.mem_cons_of_mem _ List.mem_cons_self)) left.tidy
        ((operands _ (List.mem_cons_of_mem _ List.mem_cons_self)).step left.step))
  | composite composite kind type isPredicate wording labels slots ih =>
    intro plain ready tidy clear
    have operands := (Covers.slots _).clear (by simpa using clear)
    exact ih plain (fun _ hs => ready.slot hs) tidy fun slot hs =>
      operands _ (List.mem_map_of_mem hs)
  | named inner ih =>
    intro _ ready
    exact absurd rfl ready.here.1
  | fitted resolved fits ih => exact ih
  | noSlot => exact fun _ _ _ _ => .refl _
  | slot first rest ihFirst ihRest =>
    intro plain ready tidy clear
    obtain ⟨firstReady, restReady⟩ := List.forall_mem_cons.mp ready
    obtain ⟨firstClear, restClear⟩ := List.forall_mem_cons.mp clear
    have separated := first.separates plain firstReady tidy firstClear
    exact (ihFirst plain firstReady tidy firstClear).trans
      (ihRest plain restReady separated.tidy fun slot hs => (restClear slot hs).step separated.step)
  | _ => trivial

theorem Resolved.flatRows {rows rows' : Rows} {tables tables' : List Table} {f f' : Fresh}
    (h : Resolved schema native (.tables rows tables f tables' rows' f')) (flat : FlatRows rows) :
    FlatRows rows' := by
  induction tables generalizing rows f tables' with
  | nil =>
    cases h
    exact flat
  | cons table others ih =>
    cases h with
    | table first exposed rest =>
      exact ih rest (List.forall_mem_cons.mpr ⟨Source.isFlat_row exposed, flat⟩)

/-- What is resolved behind a flat expression and a condition is the expression again. -/
theorem Expr.resolve_again {again : Reentry} (ha : again.Follows schema native)
    (hr : again.RepeatsFlat) {rows : Rows} (plain : PlainRows rows) (flatRows : FlatRows rows)
    {e e' : Expr} {condition condition' later : Option Expr}
    {tables tables₁ tables₂ tables' : List Table} {f f₁ f₂ f' : Fresh} (flat : e.IsFlat)
    (tidy : Tidy f tables)
    (ready : ∀ e' ∈ e :: condition.toList, (Node.expression e').Ready)
    (clear : ∀ e' ∈ e :: condition.toList, Clear f tables (.expression e'))
    (first : Resolver.fit ⟨Mapping.ofSchema schema, native⟩ .value
      (e.resolve ⟨Mapping.ofSchema schema, native⟩ again rows .value) tables f =
        .ok ((e', tables₁), f₁))
    (between : resolveOption ⟨Mapping.ofSchema schema, native⟩ again rows .predicate condition
      tables₁ f₁ = .ok ((condition', tables₂), f₂))
    (last : resolveOption ⟨Mapping.ofSchema schema, native⟩ again rows .value (some e) tables₂ f₂ =
      .ok ((later, tables'), f')) :
    e'.IsFlat ∧ later = some e' := by
  obtain ⟨here, behind⟩ := List.forall_mem_cons.mp ready
  obtain ⟨hereClear, behindClear⟩ := List.forall_mem_cons.mp clear
  have step := (resolved_of_fit (fun _ => e.resolved_of_resolve ha) first).separates plain here tidy
    hereClear
  have repeated :=
    Resolver.fit_repeats (e.resolve_repeats hr flatRows flat .value) _ _ _ _ _ tidy first
  have kept := (resolved_of_resolveOption ha condition between).retaining plain
    (by simpa using behind) step.tidy (by simpa using fun e he => (behindClear e he).step step.step)
  simp only [resolveOption] at last
  obtain ⟨e₁, tables₁, f₁, run, last⟩ := Joining.bind_eq_ok.mp last
  obtain ⟨rfl, -, -⟩ := Joining.pure_eq_ok.mp last
  rw [repeated.again _ _ kept] at run
  cases run
  exact ⟨repeated.result, rfl⟩

/-- A statement that selects just what it groups by, with no statement inside the key. -/
structure Statement.SelectsKey (s : Statement) : Prop where
  flat : s.projection.IsFlat
  key : s.grouping = some s.projection
  unlimited : s.top = none
  repeated : s.isDistinct = false

/-- The key of a group is resolved twice, to the same expression. -/
theorem Statement.SelectsKey.resolve {s s' : Statement} {f f' : Fresh} (h : s.SelectsKey)
    (ready : (Node.statement s).Ready) (apart : (Node.statement s).Apart)
    (issued : (Node.statement s).Within f.Issued)
    (run : s.resolve (Mapping.ofSchema schema) native f = .ok (s', f')) : s'.SelectsKey := by
  obtain ⟨flat, key, unlimited, repeated⟩ := h
  have tidy : Tidy f s.tables := ⟨ready.here, apart.here.1, issued.here⟩
  have clear := fun child hc =>
    Clear.intro (apart.child hc) (issued.child hc) (apart.here.2 child hc)
  -- The projection is a slot as the key, whatever its name as the projection.
  have isSlot : ∀ e ∈ s.projection :: s.condition.toList, ∃ position, (position, e) ∈ s.slots := by
    intro e he
    rcases List.mem_cons.mp he with rfl | he
    · exact ⟨.value, by simp [Statement.slots, Statement.clauses, key]⟩
    · exact ⟨.predicate, by simpa [Statement.slots, Statement.clauses] using he⟩
  obtain ⟨projection, tables, condition, grouping, orderings, top, isDistinct, rowNumber, rowOffset,
    shape⟩ := s
  obtain rfl : grouping = some projection := key
  obtain rfl : top = none := unlimited
  simp only [Statement.resolve, Statement.resolveIn] at run
  obtain ⟨⟨tables₁, rows₁⟩, f₁, ht, run⟩ := Supply.bind_eq_ok.mp run
  obtain ⟨tables₂, f₂, hj, run⟩ := Supply.bind_eq_ok.mp run
  obtain ⟨⟨s₁, tables₃⟩, f₃, he, run⟩ := Supply.bind_eq_ok.mp run
  obtain ⟨checked, rfl⟩ := Supply.lift_eq_ok.mp run
  obtain rfl := Statement.checked_eq_ok checked
  obtain ⟨projection', tables₄, f₄, hp, he⟩ := Joining.bind_eq_ok.mp he
  obtain ⟨condition', tables₅, f₅, hc, he⟩ := Joining.bind_eq_ok.mp he
  obtain ⟨grouping', tables₆, f₆, hg, he⟩ := Joining.bind_eq_ok.mp he
  obtain ⟨orderings', tables₇, f₇, ho, he⟩ := Joining.bind_eq_ok.mp he
  obtain ⟨top', tables₈, f₈, htop, he⟩ := Joining.bind_eq_ok.mp he
  obtain ⟨rowNumber', tables₉, f₉, hn, he⟩ := Joining.bind_eq_ok.mp he
  obtain ⟨rowOffset', tables', f', hoff, he⟩ := Joining.bind_eq_ok.mp he
  rw [Joining.get_bind] at he
  obtain ⟨rfl, rfl, rfl⟩ := Joining.pure_eq_ok.mp he
  have sources := resolved_of_resolveTables (Reentry.upTo_follows _) tables ht
  have scope : PlainRows [] := List.forall_mem_nil _
  have nested := sources.separates scope
    (fun s hs => ready.child (List.mem_append_right _ (List.mem_map_of_mem hs))) tidy
    fun s hs => clear _ (List.mem_append_right _ (List.mem_map_of_mem hs))
  obtain ⟨⟨rfl, rfl⟩, plain, -, slotsReady⟩ := sources.slots_ready hj scope ready
  obtain ⟨rfl, -, -⟩ := Joining.pure_eq_ok.mp htop
  have again := Expr.resolve_again (Reentry.upTo_follows _) (Reentry.upTo_repeats _) plain
    (sources.flatRows (List.forall_mem_nil _)) flat nested.tidy ?_ ?_ hp hc hg
  · exact ⟨again.1, again.2, rfl, repeated⟩
  · intro e he
    obtain ⟨position, hs⟩ := isSlot e he
    exact slotsReady _ hs
  · intro e he
    obtain ⟨position, hs⟩ := isSlot e he
    exact (clear _ (List.mem_append_left _ (List.mem_map_of_mem hs))).step nested.step

end Comprehension.Sql
