import Comprehension.Proofs.Settled

/-!
Passes of resolution. What a member stands for is resolved in a pass of its own, which may come upon
members again. Each pass leaves no more members behind than it was given, and what a member stands for
holds fewer than the access to it. So there is exactly one way to resolve every tree, and as many
passes as the tree has members are enough.
-/
namespace Comprehension.Sql

variable {schema : Schema} {native : Bool}

section Frames

/-- Following a member yields rows of a source, and only joins are added to the tables. -/
theorem Entity.row_of_navigate {e : Entity} {member : String} {tables tables' : List Table}
    {f f' : Fresh} {row : Expr}
    (h : e.navigate (Mapping.ofSchema schema) member tables f = .ok ((row, tables'), f')) :
    (∃ tableAlias, row.RowOf tableAlias) ∧ tables'.map Table.bare = tables.map Table.bare := by
  rw [navigate_apply] at h
  split at h
  · cases h
  · rename_i joins rebuild found
    obtain ⟨-, bare, -⟩ := Table.place_of_focusIn found
    obtain ⟨target, f₁, -, h⟩ := Supply.bind_eq_ok.mp h
    obtain ⟨row', f₂, hrow, h⟩ := Supply.bind_eq_ok.mp h
    obtain ⟨exposed, rfl⟩ := Supply.lift_eq_ok.mp hrow
    obtain ⟨hr, rfl⟩ := Supply.pure_eq_ok.mp h
    obtain ⟨rfl, rfl⟩ := Prod.mk.inj hr
    obtain ⟨tableAlias, -, row⟩ := Source.row_eq_ok exposed
    exact ⟨⟨tableAlias, row⟩, bare _⟩

theorem bare_of_resolveTableJoins {mapping : Mapping} {tables tables' : List Table} {f f' : Fresh}
    (h : resolveTableJoins mapping tables f = .ok (tables', f')) :
    tables'.map Table.bare = tables.map Table.bare := by
  induction tables generalizing f tables' with
  | nil =>
    obtain ⟨rfl, -⟩ := Supply.pure_eq_ok.mp h
    rfl
  | cons table rest ih =>
    simp only [resolveTableJoins] at h
    obtain ⟨joins, f₁, -, h⟩ := Supply.bind_eq_ok.mp h
    obtain ⟨rest', f₂, hr, h⟩ := Supply.bind_eq_ok.mp h
    obtain ⟨rfl, rfl⟩ := Supply.pure_eq_ok.mp h
    rw [List.map_cons, List.map_cons, ih hr]
    rfl

theorem PlainRows.cons {rows : Rows} (h : PlainRows rows) (key : Nat) {source : Source}
    {unresolved : String → Violation} {row : Expr}
    (exposed : source.row schema unresolved = .ok row) : PlainRows ((key, row) :: rows) := by
  obtain ⟨tableAlias, -, plain⟩ := Source.row_eq_ok exposed
  exact List.forall_mem_cons.mpr ⟨⟨tableAlias, plain⟩, h⟩

/-- What is left alone by a rule, in any tree: the tables of the statement but for their joins, and
that the rows in scope are rows of sources. -/
def Frames : Judgement → Prop
  | .expression _ _ _ tables _ _ tables' _ => tables'.map Table.bare = tables.map Table.bare
  | .fitted _ _ _ tables _ _ tables' _ => tables'.map Table.bare = tables.map Table.bare
  | .slots _ _ tables _ _ tables' _ => tables'.map Table.bare = tables.map Table.bare
  | .tables rows _ _ _ rows' _ => PlainRows rows → PlainRows rows'
  | .source .. => True
  | .statement .. => True

theorem Resolved.frames {j : Judgement} (h : Resolved schema native j) : Frames j := by
  induction h with
  | leaf | constant | tableReference | subStatement | noSlot => exact rfl
  | member owner mapped again ihOwner ihAgain => exact ihAgain.trans ihOwner
  | navigation followed => exact (Entity.row_of_navigate followed).2
  | binary first second compared leftFits rightFits ihFirst ihSecond =>
    exact ihSecond.trans ihFirst
  | composite composite kind type isPredicate wording labels slots ih => exact ih
  | named inner ih => exact ih
  | fitted resolved fits ih => exact ih
  | slot first rest ihFirst ihRest => exact ihRest.trans ihFirst
  | unresolvedSource | tableSource | statementSource | statement => exact trivial
  | noTable => exact id
  | table first exposed rest ihFirst ihRest => exact fun plain => ihRest (plain.cons _ exposed)

/-- The sources of a statement are those that its tables were resolved to. -/
theorem Resolved.sourceStatements_eq {rows : Rows} {slots slots' : List (Position × Expr)}
    {tables₁ tables₂ tables' : List Table} {f₁ f₂ f' : Fresh}
    (joins : resolveTableJoins (Mapping.ofSchema schema) tables₁ f₁ = .ok (tables₂, f₂))
    (resolved : Resolved schema native (.slots rows slots tables₂ f₂ slots' tables' f')) :
    sourceStatements tables' = sourceStatements tables₁ :=
  sourceStatements_eq_of_bare (resolved.frames.trans (bare_of_resolveTableJoins joins))

end Frames

/-- Names stand around an expression that has none. -/
theorem Expr.named_induction {P : Expr → Prop} (named : ∀ name e, P e → P (.named ⟨name, e⟩))
    (other : ∀ e : Expr, e.kind ≠ .named → P e) (e : Expr) : P e := by
  cases e with
  | named n =>
    obtain ⟨name, inner⟩ := n
    exact named name inner (named_induction named other inner)
  | _ => exact other _ (by simp [kind])
termination_by structural e

section Count

/-- The members that the slots of a node hold together. -/
def slotsMemberCount : List (Position × Expr) → Nat
  | [] => 0
  | slot :: rest => slot.2.memberCount + slotsMemberCount rest

@[simp] theorem slotsMemberCount_nil : slotsMemberCount [] = 0 := rfl

@[simp] theorem slotsMemberCount_cons (slot : Position × Expr) (slots : List (Position × Expr)) :
    slotsMemberCount (slot :: slots) = slot.2.memberCount + slotsMemberCount slots := rfl

@[simp] theorem slotsMemberCount_append (slots others : List (Position × Expr)) :
    slotsMemberCount (slots ++ others) = slotsMemberCount slots + slotsMemberCount others := by
  induction slots with
  | nil => simp
  | cons slot rest ih => simp [ih, Nat.add_assoc]

theorem memberCount_le_slotsMemberCount {slots : List (Position × Expr)} {slot : Position × Expr}
    (h : slot ∈ slots) : slot.2.memberCount ≤ slotsMemberCount slots := by
  obtain ⟨before, after, rfl⟩ := List.append_of_mem h
  rw [slotsMemberCount_append, slotsMemberCount_cons]
  omega

theorem slotsMemberCount_eq_zero {slots : List (Position × Expr)}
    (h : ∀ slot ∈ slots, slot.2.memberCount = 0) : slotsMemberCount slots = 0 := by
  induction slots with
  | nil => rfl
  | cons slot rest ih =>
    rw [List.forall_mem_cons] at h
    rw [slotsMemberCount_cons, h.1, ih h.2]

theorem slotsMemberCount_option (position : Position) (e : Option Expr) :
    slotsMemberCount (e.toList.map (position, ·)) = optionMemberCount e := by
  cases e <;> simp [optionMemberCount]

theorem slotsMemberCount_args (args : List Expr) :
    slotsMemberCount (args.map (.singleValue, ·)) = argsMemberCount args := by
  induction args with
  | nil => rfl
  | cons e rest ih => simp [argsMemberCount, ih]

theorem slotsMemberCount_branches (branches : List (Expr × Expr)) :
    slotsMemberCount (branches.flatMap fun branch =>
      [(.predicate, branch.1), (.singleValue, branch.2)]) = branchesMemberCount branches := by
  induction branches with
  | nil => rfl
  | cons branch rest ih => simp [branchesMemberCount, ih, Nat.add_assoc]

theorem slotsMemberCount_orderings (orderings : List Ordering) :
    slotsMemberCount (orderings.map fun ordering => (.singleValue, ordering.expression)) =
      orderingsMemberCount orderings := by
  induction orderings with
  | nil => rfl
  | cons ordering rest ih =>
    cases ordering
    simp [orderingsMemberCount, ih]

theorem slotsMemberCount_members (members : List Named) :
    slotsMemberCount (members.map fun n => (.value, n.expression)) =
      membersMemberCount members := by
  induction members with
  | nil => rfl
  | cons n rest ih =>
    cases n
    simp [membersMemberCount, ih]

namespace Expr

theorem memberCount_of_composite {e : Expr} (composite : e.kind.isComposite = true) :
    e.memberCount = slotsMemberCount e.slots := by
  cases e with
  | case branches otherwise type =>
    simp [memberCount, slots, slotsMemberCount_branches, slotsMemberCount_option]
  | function name args type isPredicate => exact (slotsMemberCount_args args).symm
  | rowNumber orderings => exact (slotsMemberCount_orderings orderings).symm
  | compound members => exact (slotsMemberCount_members members).symm
  | like | likeEscape | logical | not | convert | aggregation => simp [memberCount, slots]
  | _ => cases composite

theorem memberCount_unnamed (e : Expr) : e.unnamed.memberCount = e.memberCount := by
  cases e with
  | named n =>
    cases n
    rfl
  | _ => rfl

theorem memberCount_renamed (projection e : Expr) :
    (projection.renamed e).memberCount = e.memberCount := by
  cases projection with
  | named n =>
    cases n
    rfl
  | _ => rfl

theorem PartOf.memberCount_eq_zero {tableAlias : String} {e : Expr} (h : e.PartOf tableAlias) :
    e.memberCount = 0 := by
  cases h <;> rfl

/-- The rows of a source hold no members. -/
theorem RowOf.memberCount_eq_zero {tableAlias : String} {e : Expr} (h : e.RowOf tableAlias) :
    e.memberCount = 0 := by
  rcases h with h | ⟨members, rfl, h⟩
  · exact h.memberCount_eq_zero
  · refine (memberCount_of_composite rfl).trans (slotsMemberCount_eq_zero fun slot hs => ?_)
    obtain ⟨n, hn, rfl⟩ := List.mem_map.mp hs
    exact (h n hn).memberCount_eq_zero

theorem memberCount_of_adapted {position : Position} {e e' : Expr}
    (fits : adapted native position e = .ok e') : e'.memberCount ≤ e.memberCount := by
  rcases adapted_cases fits with rfl | ⟨-, rfl⟩ | ⟨-, -, rfl⟩ | ⟨value, -, rfl⟩
  · exact Nat.le_refl _
  · simp [asValue, memberCount, branchesMemberCount, optionMemberCount, int]
  · simp [equal, binaryOf, memberCount, int]
  · simp [truth, binaryOf, memberCount, int]

/-- The identity of an entity is a column or the key of a constant, and null is its own. -/
theorem identity_cases {e e' : Expr} (unnamed : e.kind ≠ .named) (h : e.identity = .ok e') :
    (∃ c, e' = column c) ∨ (∃ type value, e = entityConstant type value e') ∨ e' = e := by
  cases e with
  | entityConstant type value key =>
    exact .inr (.inl ⟨type, value, by rw [Except.ok.inj h]⟩)
  | _ =>
    rcases identity_eq_ok ⟨unnamed, rfl⟩ h with ⟨entity, -, rfl⟩ | ⟨tableAlias, name, entity, -, rfl⟩ |
      ⟨type, value, id, keyType, constant, -⟩ | ⟨rfl, -⟩
    · exact .inl ⟨_, rfl⟩
    · exact .inl ⟨_, rfl⟩
    · cases constant
    · exact .inr (.inr rfl)

theorem memberCount_of_identity {e e' : Expr} (h : e.identity = .ok e') :
    e'.memberCount ≤ e.memberCount := by
  induction e using named_induction with
  | named name e ih => exact ih h
  | other e unnamed =>
    rcases identity_cases unnamed h with ⟨c, rfl⟩ | ⟨type, value, rfl⟩ | rfl
    · exact Nat.zero_le _
    · exact Nat.le_refl _
    · exact Nat.le_refl _

/-- A member of an entity is a step to another one or a column, and a member of a compound one of its
expressions. -/
theorem memberOf_cases {e found : Expr} {member : String} (unnamed : e.kind ≠ .named)
    (h : e.memberOf schema member = .ok found) :
    (∃ entity type, found = navigation entity member type) ∨ (∃ c, found = column c) ∨
      ∃ members, ∃ n ∈ members, e = compound members ∧ found = n.expression := by
  have keyed : e.keyed = true := by
    cases e with
    | entityConstant => cases h
    | _ => rfl
  rcases memberOf_eq_ok ⟨unnamed, keyed⟩ h with followed | ⟨c, rfl, -⟩ | listed
  · exact .inl followed
  · exact .inr (.inl ⟨c, rfl⟩)
  · exact .inr (.inr listed)

/-- What a member stands for holds no more members than what it is a member of. -/
theorem memberCount_of_memberOf {e found : Expr} {member : String}
    (h : e.memberOf schema member = .ok found) : found.memberCount ≤ e.memberCount := by
  induction e using named_induction with
  | named name e ih => exact ih h
  | other e unnamed =>
    rcases memberOf_cases unnamed h with ⟨entity, type, rfl⟩ | ⟨c, rfl⟩ | ⟨members, n, hn, rfl, rfl⟩
    · exact Nat.zero_le _
    · exact Nat.zero_le _
    · have slot : (Position.value, n.expression) ∈ (compound members).slots :=
        List.mem_map_of_mem hn
      rw [memberCount_of_composite (e := compound members) rfl]
      exact memberCount_le_slotsMemberCount slot

end Expr

def statementsMemberCount : List Statement → Nat
  | [] => 0
  | s :: rest => s.memberCount + statementsMemberCount rest

theorem statementsMemberCount_eq_zero {statements : List Statement}
    (h : ∀ s ∈ statements, s.memberCount = 0) : statementsMemberCount statements = 0 := by
  induction statements with
  | nil => rfl
  | cons s rest ih =>
    rw [List.forall_mem_cons] at h
    rw [statementsMemberCount, h.1, ih h.2]

theorem tablesMemberCount_eq (tables : List Table) :
    tablesMemberCount tables = statementsMemberCount (sourceStatements tables) := by
  induction tables with
  | nil => rfl
  | cons table rest ih =>
    obtain ⟨key, source, kind, joins⟩ := table
    rw [sourceStatements_cons, tablesMemberCount, ih]
    cases source <;> simp [Source.memberCount, Source.statement?, statementsMemberCount]

theorem Statement.memberCount_eq (s : Statement) :
    s.memberCount = slotsMemberCount s.slots + tablesMemberCount s.tables := by
  cases s
  simp only [memberCount, slots, clauses, slotsMemberCount_cons, slotsMemberCount_append,
    slotsMemberCount_option, slotsMemberCount_orderings, Expr.memberCount_unnamed]
  omega

/-- No rule adds members. -/
def Shrinks : Judgement → Prop
  | .expression rows _ e _ _ e' _ _ => PlainRows rows → e'.memberCount ≤ e.memberCount
  | .fitted rows _ e _ _ e' _ _ => PlainRows rows → e'.memberCount ≤ e.memberCount
  | .slots rows slots _ _ slots' _ _ =>
    PlainRows rows → slotsMemberCount slots' ≤ slotsMemberCount slots
  | .source rows source _ source' _ => PlainRows rows → source'.memberCount ≤ source.memberCount
  | .tables rows tables _ tables' _ _ =>
    PlainRows rows → tablesMemberCount tables' ≤ tablesMemberCount tables
  | .statement rows s _ s' _ => PlainRows rows → s'.memberCount ≤ s.memberCount

theorem Resolved.shrinks {j : Judgement} (h : Resolved schema native j) : Shrinks j := by
  induction h with
  | leaf => exact fun _ => Nat.le_refl _
  | constant mapped =>
    intro _
    rcases Schema.constant_eq_ok mapped with ⟨_, _, _, -, rfl⟩ | ⟨-, rfl⟩ <;> exact Nat.zero_le _
  | tableReference found =>
    intro plain
    obtain ⟨tableAlias, row⟩ := plain.of_lookup found
    exact Nat.le_of_eq row.memberCount_eq_zero
  | member owner mapped again ihOwner ihAgain =>
    intro plain
    calc _ ≤ _ := ihAgain plain
      _ ≤ _ := Expr.memberCount_of_memberOf mapped
      _ ≤ _ := ihOwner plain
      _ ≤ _ := Nat.le_succ _
  | navigation followed =>
    intro _
    obtain ⟨⟨tableAlias, row⟩, -⟩ := Entity.row_of_navigate followed
    exact Nat.le_of_eq row.memberCount_eq_zero
  | binary first second compared leftFits rightFits ihFirst ihSecond =>
    intro plain
    have left := ihFirst plain
    have right := ihSecond plain
    have left' := Expr.memberCount_of_adapted leftFits
    have right' := Expr.memberCount_of_adapted rightFits
    simp only [Expr.memberCount]
    rcases Expr.identities_eq_ok compared with ⟨-, hl, hr⟩ | ⟨-, rfl, rfl⟩
    · have := Expr.memberCount_of_identity hl
      have := Expr.memberCount_of_identity hr
      omega
    · omega
  | composite composite kind type isPredicate wording labels slots ih =>
    intro plain
    rw [Expr.memberCount_of_composite composite, Expr.memberCount_of_composite (kind ▸ composite)]
    exact ih plain
  | named inner ih => exact ih
  | subStatement inner ih => exact ih
  | fitted resolved fits ih => exact fun plain => Nat.le_trans (Expr.memberCount_of_adapted fits) (ih plain)
  | noSlot => exact fun _ => Nat.le_refl _
  | slot first rest ihFirst ihRest =>
    exact fun plain => Nat.add_le_add (ihFirst plain) (ihRest plain)
  | unresolvedSource mapped =>
    intro _
    obtain ⟨mapping, -, rfl, -⟩ := Mapping.source_eq_ok mapped
    exact Nat.zero_le _
  | tableSource => exact fun _ => Nat.le_refl _
  | statementSource inner ih => exact ih
  | noTable => exact fun _ => Nat.le_refl _
  | table first exposed rest ihFirst ihRest =>
    exact fun plain => Nat.add_le_add (ihFirst plain) (ihRest (plain.cons _ exposed))
  | @statement rows s f tables₁ rows₁ f₁ tables₂ f₂ root s' f' sources joins slots projection shape
      isDistinct condition ihSources ihSlots =>
    intro plain
    have kept : tablesMemberCount s'.tables = tablesMemberCount tables₁ := by
      rw [tablesMemberCount_eq, tablesMemberCount_eq, Resolved.sourceStatements_eq joins slots]
    have clauses : slotsMemberCount s'.slots = slotsMemberCount ((.value, root) :: s'.clauses) := by
      rw [Statement.slots, slotsMemberCount_cons, slotsMemberCount_cons, Expr.memberCount_unnamed,
        projection, Expr.memberCount_renamed]
    rw [Statement.memberCount_eq, Statement.memberCount_eq, kept, clauses]
    exact Nat.add_le_add (ihSlots (sources.frames plain)) (ihSources plain)

end Count

namespace Reentry

/-- Both do the same to expressions with fewer than `n` members. -/
def AgreeBelow (n : Nat) (again again' : Reentry) : Prop :=
  ∀ rows, PlainRows rows → ∀ position (e : Expr), e.memberCount < n →
    again.expression rows position e = again'.expression rows position e

theorem agreeBelow_zero (again again' : Reentry) : again.AgreeBelow 0 again' :=
  fun _ _ _ _ negative => absurd negative (Nat.not_lt_zero _)

end Reentry

/-- A schema hands out tables only, which need no further pass. -/
theorem Source.resolve_unresolved {again : Reentry} (rows : Rows) (itemType : String) :
    (Source.unresolved itemType).resolve ⟨Mapping.ofSchema schema, native⟩ again rows =
      (Mapping.ofSchema schema).source itemType := by
  simp only [Source.resolve]
  conv => rhs; rw [← bind_pure ((Mapping.ofSchema schema).source itemType)]
  refine Supply.bind_congr fun source f f' mapped => ?_
  obtain ⟨mapping, -, rfl, -⟩ := Mapping.source_eq_ok mapped
  rfl

mutual

theorem Expr.resolve_congr {again again' : Reentry} {n : Nat} (follows : again.Follows schema native)
    (agree : again.AgreeBelow n again') {rows : Rows} (plain : PlainRows rows) (e : Expr)
    (position : Position) (few : e.memberCount ≤ n) :
    e.resolve ⟨Mapping.ofSchema schema, native⟩ again rows position =
      e.resolve ⟨Mapping.ofSchema schema, native⟩ again' rows position := by
  cases e with
  | column | literal | customText | entity | entityReference | entityConstant | constant
  | tableReference | navigation | call => rfl
  | member source name type =>
    simp only [Expr.memberCount] at few
    have owners := source.resolve_congr follows agree plain .value (by omega)
    simp only [Expr.resolve]
    rw [← owners]
    refine Joining.bind_congr fun owner tables f tables₁ f₁ run => ?_
    refine congrFun (congrFun (Joining.bind_congr fun found tables f tables' f' mapped => ?_) _) _
    obtain ⟨mapped, -, -⟩ := Joining.lift_eq_ok.mp mapped
    have resolved := (resolved_of_fit (fun _ => source.resolved_of_resolve follows) run).shrinks plain
    have fewer := Expr.memberCount_of_memberOf mapped
    -- What is found has fewer members than the access to it, so that both passes over it agree.
    rw [agree rows plain position found (by omega)]
  | binary op left right type =>
    simp only [Expr.memberCount] at few
    simp only [Expr.resolve, left.resolve_congr follows agree plain .value (by omega),
      right.resolve_congr follows agree plain .value (by omega)]
  | like expression pattern =>
    simp only [Expr.memberCount] at few
    simp only [Expr.resolve, expression.resolve_congr follows agree plain .singleValue (by omega),
      pattern.resolve_congr follows agree plain .singleValue (by omega)]
  | likeEscape value =>
    simp only [Expr.resolve, value.resolve_congr follows agree plain .singleValue few]
  | logical op left right =>
    simp only [Expr.memberCount] at few
    simp only [Expr.resolve, left.resolve_congr follows agree plain .predicate (by omega),
      right.resolve_congr follows agree plain .predicate (by omega)]
  | not operand => simp only [Expr.resolve, operand.resolve_congr follows agree plain .predicate few]
  | case branches otherwise type =>
    simp only [Expr.memberCount] at few
    simp only [Expr.resolve, resolveBranches_congr follows agree plain branches (by omega),
      resolveOption_congr follows agree plain otherwise .singleValue (by omega)]
  | function name args type isPredicate =>
    simp only [Expr.resolve, resolveArgs_congr follows agree plain args few]
  | convert target expression type =>
    simp only [Expr.resolve, expression.resolve_congr follows agree plain .singleValue few]
  | aggregation function expression type =>
    simp only [Expr.resolve, expression.resolve_congr follows agree plain _ few]
  | rowNumber orderings =>
    simp only [Expr.resolve, resolveOrderings_congr follows agree plain orderings few]
  | named named =>
    obtain ⟨name, expression⟩ := named
    simp only [Expr.resolve, expression.resolve_congr follows agree plain position few]
  | compound members => simp only [Expr.resolve, resolveMembers_congr follows agree plain members few]
  | subStatement statement =>
    simp only [Expr.resolve, statement.resolveIn_congr follows agree plain few]
termination_by structural e

theorem resolveOption_congr {again again' : Reentry} {n : Nat} (follows : again.Follows schema native)
    (agree : again.AgreeBelow n again') {rows : Rows} (plain : PlainRows rows) (e : Option Expr)
    (position : Position) (few : optionMemberCount e ≤ n) :
    resolveOption ⟨Mapping.ofSchema schema, native⟩ again rows position e =
      resolveOption ⟨Mapping.ofSchema schema, native⟩ again' rows position e := by
  cases e with
  | none => rfl
  | some e => simp only [resolveOption, e.resolve_congr follows agree plain position few]
termination_by structural e

theorem resolveArgs_congr {again again' : Reentry} {n : Nat} (follows : again.Follows schema native)
    (agree : again.AgreeBelow n again') {rows : Rows} (plain : PlainRows rows) (args : List Expr)
    (few : argsMemberCount args ≤ n) :
    resolveArgs ⟨Mapping.ofSchema schema, native⟩ again rows args =
      resolveArgs ⟨Mapping.ofSchema schema, native⟩ again' rows args := by
  cases args with
  | nil => rfl
  | cons e rest =>
    simp only [argsMemberCount] at few
    simp only [resolveArgs, e.resolve_congr follows agree plain .singleValue (by omega),
      resolveArgs_congr follows agree plain rest (by omega)]
termination_by structural args

theorem resolveBranches_congr {again again' : Reentry} {n : Nat}
    (follows : again.Follows schema native) (agree : again.AgreeBelow n again') {rows : Rows}
    (plain : PlainRows rows) (branches : List (Expr × Expr))
    (few : branchesMemberCount branches ≤ n) :
    resolveBranches ⟨Mapping.ofSchema schema, native⟩ again rows branches =
      resolveBranches ⟨Mapping.ofSchema schema, native⟩ again' rows branches := by
  cases branches with
  | nil => rfl
  | cons branch rest =>
    obtain ⟨test, value⟩ := branch
    simp only [branchesMemberCount] at few
    simp only [resolveBranches, test.resolve_congr follows agree plain .predicate (by omega),
      value.resolve_congr follows agree plain .singleValue (by omega),
      resolveBranches_congr follows agree plain rest (by omega)]
termination_by structural branches

theorem resolveOrderings_congr {again again' : Reentry} {n : Nat}
    (follows : again.Follows schema native) (agree : again.AgreeBelow n again') {rows : Rows}
    (plain : PlainRows rows) (orderings : List Ordering)
    (few : orderingsMemberCount orderings ≤ n) :
    resolveOrderings ⟨Mapping.ofSchema schema, native⟩ again rows orderings =
      resolveOrderings ⟨Mapping.ofSchema schema, native⟩ again' rows orderings := by
  cases orderings with
  | nil => rfl
  | cons ordering rest =>
    obtain ⟨e, direction⟩ := ordering
    simp only [orderingsMemberCount] at few
    simp only [resolveOrderings, e.resolve_congr follows agree plain .singleValue (by omega),
      resolveOrderings_congr follows agree plain rest (by omega)]
termination_by structural orderings

theorem resolveMembers_congr {again again' : Reentry} {n : Nat} (follows : again.Follows schema native)
    (agree : again.AgreeBelow n again') {rows : Rows} (plain : PlainRows rows) (members : List Named)
    (few : membersMemberCount members ≤ n) :
    resolveMembers ⟨Mapping.ofSchema schema, native⟩ again rows members =
      resolveMembers ⟨Mapping.ofSchema schema, native⟩ again' rows members := by
  cases members with
  | nil => rfl
  | cons member rest =>
    obtain ⟨name, e⟩ := member
    simp only [membersMemberCount] at few
    simp only [resolveMembers, e.resolve_congr follows agree plain .value (by omega),
      resolveMembers_congr follows agree plain rest (by omega)]
termination_by structural members

theorem Source.resolve_congr {again again' : Reentry} {n : Nat} (follows : again.Follows schema native)
    (agree : again.AgreeBelow n again') {rows : Rows} (plain : PlainRows rows) (source : Source)
    (few : source.memberCount ≤ n) :
    source.resolve ⟨Mapping.ofSchema schema, native⟩ again rows =
      source.resolve ⟨Mapping.ofSchema schema, native⟩ again' rows := by
  cases source with
  | unresolved itemType => rw [Source.resolve_unresolved, Source.resolve_unresolved]
  | table itemType tableName tableAlias => rfl
  | statement tableAlias statement =>
    simp only [Source.resolve, statement.resolveIn_congr follows agree plain few]
termination_by structural source

theorem resolveTables_congr {again again' : Reentry} {n : Nat} (follows : again.Follows schema native)
    (agree : again.AgreeBelow n again') {rows : Rows} (plain : PlainRows rows) (tables : List Table)
    (few : tablesMemberCount tables ≤ n) :
    resolveTables ⟨Mapping.ofSchema schema, native⟩ again rows tables =
      resolveTables ⟨Mapping.ofSchema schema, native⟩ again' rows tables := by
  cases tables with
  | nil => rfl
  | cons table rest =>
    obtain ⟨key, source, kind, joins⟩ := table
    simp only [tablesMemberCount] at few
    simp only [resolveTables, source.resolve_congr follows agree plain (by omega)]
    refine Supply.bind_congr fun source f f₁ _ => ?_
    refine congrFun (Supply.bind_congr fun row f f₁ exposed => ?_) _
    obtain ⟨exposed, -⟩ := Supply.lift_eq_ok.mp exposed
    rw [resolveTables_congr follows agree (plain.cons key exposed) rest (by omega)]
termination_by structural tables

theorem Statement.resolveIn_congr {again again' : Reentry} {n : Nat}
    (follows : again.Follows schema native) (agree : again.AgreeBelow n again') {rows : Rows}
    (plain : PlainRows rows) (s : Statement) (few : s.memberCount ≤ n) :
    s.resolveIn ⟨Mapping.ofSchema schema, native⟩ again rows =
      s.resolveIn ⟨Mapping.ofSchema schema, native⟩ again' rows := by
  obtain ⟨projection, tables, condition, grouping, orderings, top, isDistinct, rowNumber, rowOffset,
    shape⟩ := s
  simp only [Statement.memberCount] at few
  simp only [Statement.resolveIn]
  rw [← resolveTables_congr follows agree plain tables (by omega)]
  refine Supply.bind_congr fun sources f f₁ run => ?_
  obtain ⟨tables', rows'⟩ := sources
  -- The clauses are resolved among the rows of the sources as well.
  have plain' : PlainRows rows' := (resolved_of_resolveTables follows tables run).frames plain
  simp only [projection.resolve_congr follows agree plain' .value (by omega),
    resolveOption_congr follows agree plain' condition .predicate (by omega),
    resolveOption_congr follows agree plain' grouping .value (by omega),
    resolveOrderings_congr follows agree plain' orderings (by omega),
    resolveOption_congr follows agree plain' top .singleValue (by omega),
    resolveOption_congr follows agree plain' rowNumber .singleValue (by omega),
    resolveOption_congr follows agree plain' rowOffset .singleValue (by omega)]
termination_by structural s

end

/-- An expression without members needs no further pass. -/
theorem Expr.resolve_of_memberCount_eq_zero {e : Expr} (none : e.memberCount = 0) {rows : Rows}
    (plain : PlainRows rows) (position : Position) (again again' : Reentry) :
    e.resolve ⟨Mapping.ofSchema schema, native⟩ again rows position =
      e.resolve ⟨Mapping.ofSchema schema, native⟩ again' rows position := by
  have unused (again : Reentry) :
      e.resolve ⟨Mapping.ofSchema schema, native⟩ (.upTo ⟨Mapping.ofSchema schema, native⟩ 0) rows
          position =
        e.resolve ⟨Mapping.ofSchema schema, native⟩ again rows position :=
    e.resolve_congr (Reentry.upTo_follows 0) (Reentry.agreeBelow_zero _ _) plain position
      (Nat.le_of_eq none)
  exact (unused again).symm.trans (unused again')

namespace Reentry

/-- Among rows of sources, a further pass is resolution with such further passes. -/
structure Recurs (r : Resolver) (again : Reentry) : Prop where
  expression : ∀ rows, PlainRows rows → ∀ position e,
    again.expression rows position e = e.resolve r again rows position
  statement : ∀ rows, PlainRows rows → ∀ s, again.statement rows s = s.resolveIn r again rows

/-- Both do the same among rows of sources. -/
structure Agree (again again' : Reentry) : Prop where
  expression : ∀ rows, PlainRows rows → ∀ position e,
    again.expression rows position e = again'.expression rows position e
  statement : ∀ rows, PlainRows rows → ∀ s, again.statement rows s = again'.statement rows s

/-- As many passes inside each other as there are members. -/
def complete (r : Resolver) : Reentry where
  expression rows position e := e.resolve r (upTo r e.memberCount) rows position
  statement rows s := s.resolveIn r (upTo r s.memberCount) rows

theorem upTo_agreeBelow {n m : Nat} (h : n ≤ m) :
    (upTo ⟨Mapping.ofSchema schema, native⟩ n).AgreeBelow n (upTo ⟨Mapping.ofSchema schema, native⟩ m) := by
  induction n generalizing m with
  | zero => exact agreeBelow_zero _ _
  | succ n ih =>
    -- The outermost passes are the same, and they differ in the passes inside them only.
    obtain ⟨m, rfl⟩ : ∃ k, m = k + 1 := ⟨m - 1, by omega⟩
    exact fun rows plain position e few =>
      e.resolve_congr (upTo_follows n) (ih (Nat.le_of_succ_le_succ h)) plain position
        (Nat.le_of_lt_succ few)

theorem upTo_agreeBelow_complete (n : Nat) :
    (upTo ⟨Mapping.ofSchema schema, native⟩ n).AgreeBelow n
      (complete ⟨Mapping.ofSchema schema, native⟩) := by
  intro rows plain position e few
  obtain ⟨n, rfl⟩ : ∃ k, n = k + 1 := ⟨n - 1, by omega⟩
  exact (e.resolve_congr (upTo_follows _) (upTo_agreeBelow (Nat.le_of_lt_succ few)) plain position
    (Nat.le_refl _)).symm

theorem complete_follows :
    (complete ⟨Mapping.ofSchema schema, native⟩).Follows schema native :=
  fun _ _ e _ _ _ _ _ h => e.resolved_of_resolve (upTo_follows _) h

theorem complete_recurs :
    (complete ⟨Mapping.ofSchema schema, native⟩).Recurs ⟨Mapping.ofSchema schema, native⟩ where
  expression _ plain position e :=
    e.resolve_congr (upTo_follows _) (upTo_agreeBelow_complete _) plain position (Nat.le_refl _)
  statement _ plain s :=
    s.resolveIn_congr (upTo_follows _) (upTo_agreeBelow_complete _) plain (Nat.le_refl _)

/-- There is one way only for resolution to re-enter itself. -/
theorem Recurs.agree_complete {again : Reentry}
    (h : again.Recurs ⟨Mapping.ofSchema schema, native⟩) :
    again.Agree (complete ⟨Mapping.ofSchema schema, native⟩) := by
  -- By induction on the members, of which each further pass is given fewer.
  have below (n : Nat) : (complete ⟨Mapping.ofSchema schema, native⟩).AgreeBelow n again := by
    induction n with
    | zero => exact agreeBelow_zero _ _
    | succ n ih =>
      intro rows plain position e few
      rw [complete_recurs.expression rows plain, h.expression rows plain]
      exact e.resolve_congr complete_follows ih plain position (Nat.le_of_lt_succ few)
  refine ⟨fun rows plain position e => (below _ rows plain position e (Nat.lt_succ_self _)).symm,
    fun rows plain s => ?_⟩
  rw [complete_recurs.statement rows plain, h.statement rows plain]
  exact (s.resolveIn_congr complete_follows (below _) plain (Nat.le_refl _)).symm

end Reentry

/-- A statement is resolved by resolution that re-enters itself. -/
theorem Statement.resolve_eq (s : Statement) :
    s.resolve (Mapping.ofSchema schema) native =
      s.resolveIn ⟨Mapping.ofSchema schema, native⟩
        (.complete ⟨Mapping.ofSchema schema, native⟩) [] :=
  Reentry.complete_recurs.statement [] (List.forall_mem_nil _) s

end Comprehension.Sql
