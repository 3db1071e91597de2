import Comprehension.Proofs.Settled

/-!
Resolving a resolved statement. It yields the same statement unless the statement compares entities
with anything but null, or holds a domain object where the key of one stands; then a second
resolution changes the statement or fails.
-/
namespace Comprehension.Sql

namespace Node

/-- Whether resolution leaves a settled node alone. The operands of a comparison have been replaced
by identities, which have none themselves. -/
def IsSteady : Node → Prop
  | .expression (.constant value _) => ∀ typeName id, value ≠ .entity typeName id
  | .expression (.binary op left right _) =>
    left.isEntity = false ∧ right.isEntity = false ∧
      ((op = .equal ∨ op = .notEqual) ∧ (left.type.isEntity || right.type.isEntity) →
        left.isNullConstant = true ∧ right.isNullConstant = true)
  | _ => True

def Steady (n : Node) : Prop := n.Everywhere IsSteady

/-- A test for steady nodes. -/
def isSteady : Node → Bool
  | .expression (.constant (.entity _ _) _) => false
  | .expression (.binary op left right _) =>
    !left.isEntity && !right.isEntity &&
      (decide (op ≠ .equal ∧ op ≠ .notEqual) || !(left.type.isEntity || right.type.isEntity) ||
        (left.isNullConstant && right.isNullConstant))
  | _ => true

theorem isSteady_sound (n : Node) (h : n.isSteady = true) : n.IsSteady := by
  cases n with
  | statement s => trivial
  | expression e =>
    cases e with
    | constant value type =>
      rintro typeName id rfl
      cases h
    | binary op left right type =>
      simp only [isSteady, Bool.and_eq_true, Bool.or_eq_true, Bool.not_eq_true',
        decide_eq_true_eq] at h
      obtain ⟨⟨leftSingle, rightSingle⟩, compared⟩ := h
      refine ⟨leftSingle, rightSingle, fun ⟨equality, typed⟩ => ?_⟩
      rcases compared with (other | untyped) | nulls
      · rcases equality with rfl | rfl
        · exact absurd rfl other.1
        · exact absurd rfl other.2
      · rw [typed] at untyped
        cases untyped
      · exact nulls
    | _ => trivial

end Node

section Stable

variable {r : Resolver} {again : Reentry} {rows : Rows}

/-- Whether a slot is resolved to what stands there. -/
def Stable (r : Resolver) (again : Reentry) (rows : Rows) (slot : Position × Expr) : Prop :=
  r.fit slot.1 (slot.2.resolve r again rows slot.1) = pure slot.2

theorem resolveOption_of_stable {position : Position} {e : Option Expr}
    (h : ∀ slot ∈ e.toList.map (position, ·), Stable r again rows slot) :
    resolveOption r again rows position e = pure e := by
  cases e with
  | none => rfl
  | some e =>
    have stable := h (position, e) (by simp)
    simp only [Stable] at stable
    simp only [resolveOption, stable, pure_bind]

theorem resolveArgs_of_stable {args : List Expr}
    (h : ∀ slot ∈ args.map (Position.singleValue, ·), Stable r again rows slot) :
    resolveArgs r again rows args = pure args := by
  induction args with
  | nil => rfl
  | cons e rest ih =>
    rw [List.map_cons, List.forall_mem_cons] at h
    have stable := h.1
    simp only [Stable] at stable
    simp only [resolveArgs, stable, ih h.2, pure_bind]

theorem resolveBranches_of_stable {branches : List (Expr × Expr)}
    (h : ∀ slot ∈ branches.flatMap fun branch =>
      [(Position.predicate, branch.1), (.singleValue, branch.2)], Stable r again rows slot) :
    resolveBranches r again rows branches = pure branches := by
  induction branches with
  | nil => rfl
  | cons branch rest ih =>
    rw [List.flatMap_cons, List.forall_mem_append, List.forall_mem_cons,
      List.forall_mem_singleton] at h
    obtain ⟨⟨test, value⟩, others⟩ := h
    simp only [Stable] at test value
    simp only [resolveBranches, test, value, ih others, pure_bind]

theorem resolveOrderings_of_stable {orderings : List Ordering}
    (h : ∀ slot ∈ orderings.map fun ordering => (Position.singleValue, ordering.expression),
      Stable r again rows slot) :
    resolveOrderings r again rows orderings = pure orderings := by
  induction orderings with
  | nil => rfl
  | cons ordering rest ih =>
    obtain ⟨e, direction⟩ := ordering
    rw [List.map_cons, List.forall_mem_cons] at h
    have stable := h.1
    simp only [Stable] at stable
    simp only [resolveOrderings, stable, ih h.2, pure_bind]

theorem resolveMembers_of_stable {members : List Named}
    (h : ∀ slot ∈ members.map fun n => (Position.value, n.expression),
      Stable r again rows slot) :
    resolveMembers r again rows members = pure members := by
  induction members with
  | nil => rfl
  | cons n rest ih =>
    obtain ⟨name, e⟩ := n
    rw [List.map_cons, List.forall_mem_cons] at h
    have stable := h.1
    simp only [Stable] at stable
    simp only [resolveMembers, stable, ih h.2, pure_bind]

/-- A composite node with stable slots is resolved to itself. -/
theorem Expr.resolve_composite {e : Expr} (composite : e.kind.isComposite = true)
    (h : ∀ slot ∈ e.slots, Stable r again rows slot) (position : Position) :
    e.resolve r again rows position = pure e := by
  cases e with
  | like expression pattern =>
    simp only [slots, List.forall_mem_cons, Stable] at h
    simp only [resolve, h.1, h.2.1, pure_bind]
  | likeEscape value =>
    simp only [slots, List.forall_mem_cons, Stable] at h
    simp only [resolve, h.1, pure_bind]
  | logical op left right =>
    simp only [slots, List.forall_mem_cons, Stable] at h
    simp only [resolve, h.1, h.2.1, pure_bind]
  | not operand =>
    simp only [slots, List.forall_mem_cons, Stable] at h
    simp only [resolve, h.1, pure_bind]
  | case branches otherwise type =>
    rw [slots, List.forall_mem_append] at h
    simp only [resolve, resolveBranches_of_stable h.1, resolveOption_of_stable h.2, pure_bind]
  | function name args type isPredicate =>
    simp only [resolve, resolveArgs_of_stable h, pure_bind]
  | convert target value type =>
    simp only [slots, List.forall_mem_cons, Stable] at h
    simp only [resolve, h.1, pure_bind]
  | aggregation aggregate value type =>
    simp only [slots, List.forall_mem_cons, Stable] at h
    simp only [resolve, h.1, pure_bind]
  | rowNumber orderings => simp only [resolve, resolveOrderings_of_stable h, pure_bind]
  | compound members => simp only [resolve, resolveMembers_of_stable h, pure_bind]
  | _ => cases composite

theorem Source.resolve_of_row (rows : Rows) {source : Source} {row : Expr}
    (exposed : source.row r.mapping.schema .sourceLeftUnresolved = .ok row)
    (h : ∀ s, source.statement? = some s → s.resolveIn r again rows = pure s) :
    source.resolve r again rows = pure source := by
  cases source with
  | unresolved itemType => cases exposed
  | table itemType tableName tableAlias => rfl
  | statement tableAlias s => simp only [resolve, h s rfl, pure_bind]

theorem resolveTables_of_rows (rows : Rows) {tables : List Table}
    (exposed : ∀ table ∈ tables,
      ∃ row, table.source.row r.mapping.schema .sourceLeftUnresolved = .ok row)
    (h : ∀ s ∈ sourceStatements tables, ∀ rows, s.resolveIn r again rows = pure s) :
    ∃ rows', resolveTables r again rows tables = pure (tables, rows') := by
  induction tables generalizing rows with
  | nil => exact ⟨rows, rfl⟩
  | cons table rest ih =>
    obtain ⟨key, source, kind, joins⟩ := table
    obtain ⟨⟨row, hrow⟩, others⟩ := List.forall_mem_cons.mp exposed
    obtain ⟨rows', hrest⟩ := ih ((key, row) :: rows) others fun s hs =>
      h s (mem_sourceStatements_cons.mpr (.inr hs))
    have first := Source.resolve_of_row rows hrow fun s hs =>
      h s (mem_sourceStatements_cons.mpr (.inl hs)) rows
    have lifted : (liftM (source.row r.mapping.schema .sourceLeftUnresolved) : Supply Expr) =
        pure row := by
      rw [hrow]
      rfl
    refine ⟨rows', ?_⟩
    simp only [resolveTables, first, lifted, hrest, pure_bind]

end Stable

variable {schema : Schema} {native : Bool}

/-- Whether resolution yields the node that it is given, and draws no names. -/
def Unchanged (schema : Schema) (native : Bool) : Node → Prop
  | .expression e => ∀ again rows position,
    e.resolve ⟨Mapping.ofSchema schema, native⟩ again rows position = pure e
  | .statement s => ∀ again rows,
    s.resolveIn ⟨Mapping.ofSchema schema, native⟩ again rows = pure s

theorem Resolver.fit_pure {mapping : Mapping} {position : Position} {e : Expr}
    (h : e.Fits native position) : Resolver.fit ⟨mapping, native⟩ position (pure e) = pure e := by
  have fits := Expr.adapted_of_fits h
  simp only [Resolver.fit, pure_bind, fits]
  rfl

theorem stable_of_unchanged (again : Reentry) (rows : Rows) (slot : Position × Expr)
    (h : Unchanged schema native (.expression slot.2)) (fits : slot.2.Fits native slot.1) :
    Stable ⟨Mapping.ofSchema schema, native⟩ again rows slot := by
  have resolved := h again rows slot.1
  simp only [Stable, resolved]
  exact Resolver.fit_pure fits

theorem identities_of_steady {op : BinaryOp} {left right : Expr} {type : ValueType}
    (h : (Node.expression (.binary op left right type)).IsSteady) :
    identities op left right = .ok (left, right) := by
  have same {e : Expr} (h : e.isNullConstant = true) : e.identity = .ok e := by
    cases e <;> first | cases h | simp [Expr.identity, h]
  unfold identities
  split
  · rename_i compared
    obtain ⟨leftNull, rightNull⟩ := h.2.2 compared
    rw [same leftNull, same rightNull]
    rfl
  · rfl

theorem Expr.unchanged_binary {op : BinaryOp} {left right : Expr} {type : ValueType}
    (steady : (Node.expression (binary op left right type)).IsSteady)
    (leftFits : left.Fits native .value) (rightFits : right.Fits native .value)
    (hl : Unchanged schema native (.expression left))
    (hr : Unchanged schema native (.expression right)) :
    Unchanged schema native (.expression (binary op left right type)) := by
  intro again rows position
  have leftStable := stable_of_unchanged again rows (.value, left) hl leftFits
  have rightStable := stable_of_unchanged again rows (.value, right) hr rightFits
  have leftSingle : left.Fits native .singleValue := ⟨steady.1, leftFits⟩
  have rightSingle : right.Fits native .singleValue := ⟨steady.2.1, rightFits⟩
  have compared : (liftM (identities op left right) : Joining (Expr × Expr)) =
      pure (left, right) := by
    rw [identities_of_steady steady]
    rfl
  simp only [Stable] at leftStable rightStable
  simp only [resolve, leftStable, rightStable, compared, Resolver.fit_pure leftSingle,
    Resolver.fit_pure rightSingle, pure_bind]

theorem projection_of_unchanged (again : Reentry) (rows : Rows) {projection : Expr}
    (h : Unchanged schema native (.expression projection.unnamed))
    (fits : projection.unnamed.Fits native .value) :
    Resolver.fit ⟨Mapping.ofSchema schema, native⟩ .value
      (projection.resolve ⟨Mapping.ofSchema schema, native⟩ again rows .value) =
        pure projection := by
  have stable := stable_of_unchanged again rows (.value, projection.unnamed) h fits
  cases projection with
  | named n =>
    obtain ⟨name, e⟩ := n
    simp only [Stable, Expr.unnamed] at stable
    simp only [Expr.resolve, stable, pure_bind]
    have fits : (Expr.named ⟨name, e⟩).Fits native .value := fun _ => rfl
    exact Resolver.fit_pure fits
  | _ => exact stable

theorem Statement.unchanged {s : Statement}
    (settled : (Node.statement s).IsSettled schema native)
    (below : ∀ child ∈ (Node.statement s).children, Unchanged schema native child) :
    Unchanged schema native (.statement s) := by
  obtain ⟨linked, fits, exposed, condition⟩ := settled
  intro again rows
  obtain ⟨rows', sources⟩ := resolveTables_of_rows rows exposed
    fun s hs => below _ (List.mem_append_right _ (List.mem_map_of_mem hs)) again
  have expression {slot : Position × Expr} (hs : slot ∈ s.slots) :
      Unchanged schema native (.expression slot.2) :=
    below _ (List.mem_append_left _ (List.mem_map_of_mem hs))
  have projection := projection_of_unchanged again rows'
    (expression List.mem_cons_self) (fits _ List.mem_cons_self)
  have clauses : ∀ slot ∈ s.clauses, Stable ⟨Mapping.ofSchema schema, native⟩ again rows' slot :=
    fun slot hs => stable_of_unchanged again rows' slot (expression (List.mem_cons_of_mem _ hs))
      (fits _ (List.mem_cons_of_mem _ hs))
  have checked := Statement.checked_self.mpr condition
  obtain ⟨projection, tables, condition, grouping, orderings, top, isDistinct, rowNumber, rowOffset,
    shape⟩ := s
  simp only [Statement.clauses, List.forall_mem_append] at clauses
  obtain ⟨⟨⟨⟨⟨hc, hg⟩, ho⟩, ht⟩, hn⟩, hf⟩ := clauses
  simp only [Statement.resolveIn, sources, pure_bind, resolveTableJoins_of_linked _ linked, projection,
    resolveOption_of_stable hc, resolveOption_of_stable hg, resolveOrderings_of_stable ho,
    resolveOption_of_stable ht, resolveOption_of_stable hn, resolveOption_of_stable hf, if_true]
  change (liftM (Statement.checked _) : Supply Statement) = _
  rw [checked]
  rfl

/-- A settled statement that is steady is resolved to itself. -/
theorem Node.Settled.unchanged {n : Node} (settled : n.Settled schema native) (steady : n.Steady) :
    Unchanged schema native n := by
  induction settled with
  | intro here below ih =>
    rename_i n
    have ih' (child : Node) (hc : child ∈ n.children) : Unchanged schema native child :=
      ih child hc (steady.child hc)
    cases n with
    | statement s => exact Statement.unchanged here ih'
    | expression e =>
      obtain ⟨pending, -, fits⟩ := here
      cases e with
      | column | literal | customText | entity | entityReference | entityConstant =>
        exact fun _ _ _ => rfl
      | constant value type =>
        have mapped : schema.constant value type = .ok (.constant value type) :=
          Schema.constant_of_ne steady.here
        intro again rows position
        simp only [Expr.resolve, Mapping.ofSchema, mapped]
        rfl
      | binary op left right type =>
        exact Expr.unchanged_binary steady.here (fits _ List.mem_cons_self)
          (fits _ (List.mem_cons_of_mem _ List.mem_cons_self)) (ih' _ List.mem_cons_self)
          (ih' _ (List.mem_cons_of_mem _ List.mem_cons_self))
      | subStatement s =>
        intro again rows position
        have inner := ih' _ List.mem_cons_self again rows
        simp only [Expr.resolve, inner]
        rfl
      | like | likeEscape | logical | not | case | function | convert | aggregation | rowNumber
      | compound =>
        intro again rows position
        exact Expr.resolve_composite rfl (fun slot hs =>
          stable_of_unchanged again rows slot (ih' _ (List.mem_map_of_mem hs)) (fits slot hs)) position
      | navigation | named | tableReference | member | call => cases pending

/-- Resolution keeps the kind of a settled node, but for domain objects. -/
def KindKept (e e' : Expr) : Prop :=
  e'.kind = e.kind ∨ ∃ typeName id type keyType, e = .constant (.entity typeName id) type ∧
    e' = .entityConstant type (.entity typeName id) (.constant id keyType)

namespace Expr

theorem steady_leaf {e : Expr} (leaf : e.kind.isLeaf = true) : (Node.expression e).Steady := by
  have here : (Node.expression e).IsSteady := by cases e <;> trivial
  refine .ofSlots ?_ here (by simp [slots_of_isLeaf leaf])
  rintro s rfl
  cases leaf

theorem steady_composite {e : Expr} (composite : e.kind.isComposite = true)
    (slots : ∀ slot ∈ e.slots, (Node.expression slot.2).Steady) : (Node.expression e).Steady := by
  have here : (Node.expression e).IsSteady := by cases e <;> trivial
  refine .ofSlots ?_ here slots
  rintro s rfl
  cases composite

theorem eq_of_adapted {position : Position} {e e' : Expr}
    (fits : adapted native position e = .ok e') (h : e.isPredicate = e'.isPredicate) : e' = e := by
  rcases adapted_cases fits with rfl | ⟨hp, rfl⟩ | ⟨hp, -, rfl⟩ | ⟨value, ht, rfl⟩
  · rfl
  · rw [hp] at h
    cases h
  · rw [hp] at h
    cases h
  · rw [isPredicate_truth] at h
    cases e <;> first | cases ht | cases h

theorem kind_of_adapted {position : Position} {e e' : Expr}
    (fits : adapted native position e = .ok e') :
    e' = e ∨ e'.kind = .case ∨ e'.kind = .binary := by
  rcases adapted_cases fits with rfl | ⟨-, rfl⟩ | ⟨-, -, rfl⟩ | ⟨value, -, rfl⟩
  · exact .inl rfl
  · exact .inr (.inl rfl)
  · exact .inr (.inr rfl)
  · exact .inr (.inr rfl)

/-- A value is single unless it is an entity. -/
theorem single_of_value {e e' : Expr} (h : e.Fits native .value)
    (fits : adapted native .singleValue e = .ok e') : e' = e ∧ e.isEntity = false := by
  have he : e.isEntity = false := by
    rw [adapted_eq] at fits
    cases he : e.isEntity with
    | false => rfl
    | true =>
      rw [he] at fits
      cases fits
  have single : e.Fits native .singleValue := ⟨he, h⟩
  have same := adapted_of_fits single
  exact ⟨Except.ok.inj (fits.symm.trans same), he⟩

theorem isPredicate_identity {e e' : Expr} (ready : (Node.expression e).IsReady)
    (h : e.identity = .ok e') : e'.isPredicate = false := by
  rcases identity_eq_ok ready h with ⟨_, -, rfl⟩ | ⟨_, _, _, -, rfl⟩ | ⟨_, _, _, _, -, rfl⟩ |
    ⟨rfl, null⟩
  · rfl
  · rfl
  · rfl
  · cases e' <;> first | rfl | cases null

theorem isEntity_iff_kind {e : Expr} :
    e.isEntity = true ↔ e.kind = .entity ∨ e.kind = .entityReference ∨ e.kind = .entityConstant := by
  cases e <;> simp [isEntity, kind]

/-- An operand that is its own identity after resolution was null before. -/
theorem null_of_identity {e e' : Expr} (ready : (Node.expression e').IsReady)
    (kept : KindKept e e' ∨ e'.kind = .case ∨ e'.kind = .binary) (h : e'.identity = .ok e)
    (single : e.isEntity = false) : e' = e ∧ e.isNullConstant = true := by
  have known (entity : e'.isEntity = true) : ∃ typeName id type keyType,
      e = constant (.entity typeName id) type ∧
        e' = entityConstant type (.entity typeName id) (constant id keyType) := by
    rcases kept with (kept | known) | kept | kept
    · rw [isEntity_iff_kind, kept, ← isEntity_iff_kind, single] at entity
      cases entity
    · exact known
    · simp [isEntity_iff_kind, kept] at entity
    · simp [isEntity_iff_kind, kept] at entity
  rcases identity_eq_ok ready h with ⟨_, rfl, -⟩ | ⟨_, _, _, rfl, -⟩ | ⟨_, _, _, _, rfl, same⟩ |
    ⟨rfl, null⟩
  · obtain ⟨_, _, _, _, -, same⟩ := known rfl
    cases same
  · obtain ⟨_, _, _, _, -, same⟩ := known rfl
    cases same
  · -- The key would be the domain object that it is the key of.
    obtain ⟨typeName, id, type, keyType, rfl, same'⟩ := known rfl
    injection same' with _ _ key
    injection key with key
    injection same with object
    have size := congrArg sizeOf (object.trans key)
    simp at size
  · exact ⟨rfl, null⟩

end Expr

/-- What the rules say of a settled tree that they leave as it is. -/
def Steadies (schema : Schema) (native : Bool) : Judgement → Prop
  | .expression rows _ e tables _ e' _ _ =>
    PlainRows rows → (Node.expression e).Settled schema native → Linked tables →
      e'.isPredicate = e.isPredicate ∧ KindKept e e' ∧ (e' = e → (Node.expression e).Steady)
  | .fitted rows _ e tables _ e' _ _ =>
    PlainRows rows → (Node.expression e).Settled schema native → Linked tables →
      (KindKept e e' ∨ e'.kind = .case ∨ e'.kind = .binary) ∧ (e' = e → (Node.expression e).Steady)
  | .slots rows slots tables _ slots' _ _ =>
    PlainRows rows → (∀ slot ∈ slots, (Node.expression slot.2).Settled schema native) →
      Linked tables → slots' = slots → ∀ slot ∈ slots, (Node.expression slot.2).Steady
  | .source rows source _ source' _ =>
    PlainRows rows →
      (∀ s, source.statement? = some s → (Node.statement s).Settled schema native) →
      source' = source → ∀ s, source.statement? = some s → (Node.statement s).Steady
  | .tables rows tables _ tables' _ _ =>
    PlainRows rows → (∀ s ∈ sourceStatements tables, (Node.statement s).Settled schema native) →
      tables'.map Table.bare = tables.map Table.bare →
      ∀ s ∈ sourceStatements tables, (Node.statement s).Steady
  | .statement rows s _ s' _ =>
    PlainRows rows → (Node.statement s).Settled schema native → s' = s → (Node.statement s).Steady

/-- The operands of a comparison that resolution leaves as it is. -/
theorem steady_operands {op : BinaryOp} {left right left₁ right₁ left₂ right₂ : Expr}
    {type : ValueType} (hl : (Node.expression left₁).Settled schema native)
    (hr : (Node.expression right₁).Settled schema native) (leftFits : left₁.Fits native .value)
    (rightFits : right₁.Fits native .value)
    (leftKept : KindKept left left₁ ∨ left₁.kind = .case ∨ left₁.kind = .binary)
    (rightKept : KindKept right right₁ ∨ right₁.kind = .case ∨ right₁.kind = .binary)
    (compared : identities op left₁ right₁ = .ok (left₂, right₂))
    (leftSingle : Expr.adapted native .singleValue left₂ = .ok left)
    (rightSingle : Expr.adapted native .singleValue right₂ = .ok right) :
    left₁ = left ∧ right₁ = right ∧ (Node.expression (.binary op left right type)).IsSteady := by
  rcases Expr.identities_eq_ok compared with ⟨-, hlk, hrk⟩ | ⟨apart, rfl, rfl⟩
  · obtain ⟨rfl, leftEntity⟩ :=
      Expr.single_of_value (fun _ => Expr.isPredicate_identity hl.ready.here hlk) leftSingle
    obtain ⟨rfl, rightEntity⟩ :=
      Expr.single_of_value (fun _ => Expr.isPredicate_identity hr.ready.here hrk) rightSingle
    obtain ⟨rfl, leftNull⟩ := Expr.null_of_identity hl.ready.here leftKept hlk leftEntity
    obtain ⟨rfl, rightNull⟩ := Expr.null_of_identity hr.ready.here rightKept hrk rightEntity
    exact ⟨rfl, rfl, leftEntity, rightEntity, fun _ => ⟨leftNull, rightNull⟩⟩
  · obtain ⟨rfl, leftEntity⟩ := Expr.single_of_value leftFits leftSingle
    obtain ⟨rfl, rightEntity⟩ := Expr.single_of_value rightFits rightSingle
    exact ⟨rfl, rfl, leftEntity, rightEntity, fun h => absurd h apart⟩

variable {rows rows' : Rows} {position : Position} {tables tables₁ tables' : List Table}
  {f f₁ f' : Fresh}

theorem Steadies.binary {op : BinaryOp} {type : ValueType}
    {left right left₁ right₁ left₂ right₂ left₃ right₃ : Expr}
    (first : Resolved schema native (.fitted rows .value left tables f left₁ tables₁ f₁))
    (second : Resolved schema native (.fitted rows .value right tables₁ f₁ right₁ tables' f'))
    (compared : identities op left₁ right₁ = .ok (left₂, right₂))
    (leftFits : Expr.adapted native .singleValue left₂ = .ok left₃)
    (rightFits : Expr.adapted native .singleValue right₂ = .ok right₃)
    (ihFirst : Steadies schema native (.fitted rows .value left tables f left₁ tables₁ f₁))
    (ihSecond : Steadies schema native (.fitted rows .value right tables₁ f₁ right₁ tables' f')) :
    Steadies schema native (.expression rows position (.binary op left right type) tables f
      (.binary op left₃ right₃ type) tables' f') := by
  intro plain settled linked
  have left := settled.slot List.mem_cons_self
  have right := settled.slot (List.mem_cons_of_mem _ List.mem_cons_self)
  obtain ⟨⟨hl, hlf⟩, linked₁, -⟩ := first.settles plain left.ready linked
  obtain ⟨⟨hr, hrf⟩, -, -⟩ := second.settles plain right.ready linked₁
  obtain ⟨leftKept, leftSteady⟩ := ihFirst plain left linked
  obtain ⟨rightKept, rightSteady⟩ := ihSecond plain right linked₁
  refine ⟨rfl, .inl rfl, fun same => ?_⟩
  injection same with _ sameLeft sameRight _
  rw [sameLeft] at leftFits
  rw [sameRight] at rightFits
  obtain ⟨keptLeft, keptRight, here⟩ := steady_operands hl hr hlf hrf leftKept rightKept compared
    leftFits rightFits
  refine .ofSlots (by simp) here fun slot hs => ?_
  simp only [Expr.slots, List.mem_cons, List.not_mem_nil, or_false] at hs
  rcases hs with rfl | rfl
  · exact leftSteady keptLeft
  · exact rightSteady keptRight

theorem Steadies.statement {s s' : Statement} {root : Expr} {tables₂ : List Table} {f₂ : Fresh}
    (sources : Resolved schema native (.tables rows s.tables f tables₁ rows' f₁))
    (joins : resolveTableJoins (Mapping.ofSchema schema) tables₁ f₁ = .ok (tables₂, f₂))
    (slots : Resolved schema native
      (.slots rows' s.slots tables₂ f₂ ((.value, root) :: s'.clauses) s'.tables f'))
    (projection : s'.projection = s.projection.renamed root)
    (ihSources : Steadies schema native (.tables rows s.tables f tables₁ rows' f₁))
    (ihSlots : Steadies schema native
      (.slots rows' s.slots tables₂ f₂ ((.value, root) :: s'.clauses) s'.tables f')) :
    Steadies schema native (.statement rows s f s' f') := by
  rintro plain settled rfl
  have nested := fun s hs => settled.child (List.mem_append_right _ (List.mem_map_of_mem (a := s) hs))
  have expressions := fun slot hs =>
    settled.child (List.mem_append_left _ (List.mem_map_of_mem (a := slot) hs))
  obtain ⟨⟨rfl, rfl⟩, plain₁, linked₁, slotsReady⟩ := sources.slots_ready joins plain settled.ready
  obtain ⟨fitted, -, bare⟩ := slots.settles plain₁ slotsReady linked₁
  have hs := Statement.slots_eq projection (fitted _ List.mem_cons_self).1
  refine .intro trivial fun child hc => ?_
  rcases List.mem_append.mp hc with hc | hc
  · obtain ⟨slot, mem, rfl⟩ := List.mem_map.mp hc
    exact ihSlots plain₁ expressions linked₁ hs.symm slot mem
  · obtain ⟨s, mem, rfl⟩ := List.mem_map.mp hc
    exact ihSources plain nested bare.symm s mem

theorem Resolved.steadies {j : Judgement} (h : Resolved schema native j) :
    Steadies schema native j := by
  induction h with
  | leaf leaf =>
    intro _ _ _
    exact ⟨rfl, .inl rfl, fun _ => Expr.steady_leaf leaf⟩
  | constant mapped =>
    intro _ _ _
    rcases Schema.constant_eq_ok mapped with ⟨_, _, _, rfl, rfl⟩ | ⟨ne, rfl⟩
    · exact ⟨rfl, .inr ⟨_, _, _, _, rfl, rfl⟩, fun h => nomatch h⟩
    · exact ⟨rfl, .inl rfl, fun _ => .ofSlots (by simp) ne (by simp [Expr.slots])⟩
  | tableReference found =>
    intro _ settled
    cases settled.here.1
  | member owner mapped again ihOwner ihAgain =>
    intro _ settled
    cases settled.here.1
  | navigation followed =>
    intro _ settled
    cases settled.here.1
  | named inner ih =>
    intro _ settled
    cases settled.here.1
  | binary first second compared leftFits rightFits ihFirst ihSecond =>
    exact .binary first second compared leftFits rightFits ihFirst ihSecond
  | composite composite kind type isPredicate wording labels slots ih =>
    intro plain settled linked
    refine ⟨isPredicate, .inl kind, fun same => ?_⟩
    exact Expr.steady_composite composite
      (ih plain (fun _ hs => settled.slot hs) linked (by rw [same]))
  | subStatement inner ih =>
    intro plain settled linked
    refine ⟨rfl, .inl rfl, fun same => .intro trivial fun child hc => ?_⟩
    obtain rfl := List.mem_singleton.mp hc
    injection same with same
    exact ih plain (settled.child List.mem_cons_self) same
  | fitted resolved fits ih =>
    intro plain settled linked
    obtain ⟨isPredicate, kept, steady⟩ := ih plain settled linked
    refine ⟨?_, fun same => ?_⟩
    · rcases Expr.kind_of_adapted fits with rfl | converted
      · exact .inl kept
      · exact .inr converted
    · rw [same] at fits
      exact steady (Expr.eq_of_adapted fits isPredicate).symm
  | noSlot =>
    intro _ _ _ _
    simp
  | slot first rest ihFirst ihRest =>
    intro plain settled linked same
    obtain ⟨sameFirst, sameRest⟩ := List.cons.inj same
    obtain ⟨-, linked₁, -⟩ := first.settles plain (settled _ List.mem_cons_self).ready linked
    refine List.forall_mem_cons.mpr ⟨?_, ?_⟩
    · exact (ihFirst plain (settled _ List.mem_cons_self) linked).2 (Prod.mk.inj sameFirst).2
    · exact ihRest plain (fun slot hs => settled slot (List.mem_cons_of_mem _ hs)) linked₁ sameRest
  | unresolvedSource mapped =>
    intro _ _ _ s hs
    cases hs
  | tableSource =>
    intro _ _ _ s hs
    cases hs
  | statementSource inner ih =>
    intro plain settled same s hs
    obtain rfl := Option.some.inj hs
    injection same with _ same
    exact ih plain (settled _ rfl) same
  | noTable =>
    intro _ _ _
    simp [sourceStatements]
  | table first exposed rest ihFirst ihRest =>
    intro plain settled same s hs
    obtain ⟨sameFirst, sameRest⟩ := List.cons.inj same
    obtain ⟨tableAlias, -, row⟩ := Source.row_eq_ok exposed
    rcases mem_sourceStatements_cons.mp hs with hs | hs
    · exact ihFirst plain (fun s hs => settled s (mem_sourceStatements_cons.mpr (.inl hs)))
        (Table.source_eq_of_bare sameFirst) s hs
    · exact ihRest (List.forall_mem_cons.mpr ⟨⟨_, row⟩, plain⟩)
        (fun s hs => settled s (mem_sourceStatements_cons.mpr (.inr hs))) sameRest s hs
  | statement sources joins slots projection shape isDistinct condition ihSources ihSlots =>
    exact .statement sources joins slots projection ihSources ihSlots

/-- A settled statement is resolved to itself exactly when it is steady. -/
theorem Statement.resolve_settled {s : Statement} {f : Fresh}
    (settled : (Node.statement s).Settled schema native) :
    s.resolve (Mapping.ofSchema schema) native f = .ok (s, f) ↔ (Node.statement s).Steady := by
  constructor
  · intro h
    exact (Statement.resolved_of_resolve h).steadies (by simp [PlainRows]) settled rfl
  · intro steady
    have unchanged := settled.unchanged steady
      (.upTo ⟨Mapping.ofSchema schema, native⟩ (s.memberCount + sourcePasses (Mapping.ofSchema schema))) []
    unfold Statement.resolve
    rw [unchanged]
    rfl

end Comprehension.Sql
