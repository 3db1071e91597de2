import Comprehension.Proofs.Adaptation
import Comprehension.Proofs.JoinTree
import Comprehension.Proofs.Vocabulary
import Comprehension.Resolved.Statement

/-!
What a resolution that succeeds does, as a relation with one rule for each kind of node. A member
is resolved by resolving what it stands for, however many passes that takes, so that properties of
resolved statements are shown by induction on the rules and not on passes.
-/
namespace Comprehension.Sql

/-- What is resolved to what, among which rows, and the tables of the statement and the fresh names
before and after. -/
inductive Judgement where
  | expression (rows : Rows) (position : Position) (e : Expr) (tables : List Table) (f : Fresh)
      (e' : Expr) (tables' : List Table) (f' : Fresh)
  /-- An expression that is adapted to its position. -/
  | fitted (rows : Rows) (position : Position) (e : Expr) (tables : List Table) (f : Fresh)
      (e' : Expr) (tables' : List Table) (f' : Fresh)
  | slots (rows : Rows) (slots : List (Position × Expr)) (tables : List Table) (f : Fresh)
      (slots' : List (Position × Expr)) (tables' : List Table) (f' : Fresh)
  | source (rows : Rows) (source : Source) (f : Fresh) (source' : Source) (f' : Fresh)
  /-- The sources of tables; the rows after them are in scope as well. -/
  | tables (rows : Rows) (tables : List Table) (f : Fresh) (tables' : List Table) (rows' : Rows)
      (f' : Fresh)
  | statement (rows : Rows) (s : Statement) (f : Fresh) (s' : Statement) (f' : Fresh)

inductive Resolved (schema : Schema) (native : Bool) : Judgement → Prop where
  | leaf {rows position e tables f} (leaf : e.kind.isLeaf = true) :
      Resolved schema native (.expression rows position e tables f e tables f)
  | constant {rows position value type tables f e} (mapped : schema.constant value type = .ok e) :
      Resolved schema native (.expression rows position (.constant value type) tables f e tables f)
  | tableReference {rows position key type tables f row} (found : rows.lookup key = some row) :
      Resolved schema native
        (.expression rows position (.tableReference key type) tables f row tables f)
  | member {rows position source name type found tables f source' tables₁ f₁ e tables' f'}
      (owner : Resolved schema native (.fitted rows .value source tables f source' tables₁ f₁))
      (mapped : source'.memberOf schema name = .ok found)
      (again : Resolved schema native (.expression rows position found tables₁ f₁ e tables' f')) :
      Resolved schema native
        (.expression rows position (.member source name type) tables f e tables' f')
  | navigation {rows position entity member type tables f e tables' f'}
      (followed : Entity.navigate (Mapping.ofSchema schema) entity member tables f =
        .ok ((e, tables'), f')) :
      Resolved schema native
        (.expression rows position (.navigation entity member type) tables f e tables' f')
  | binary {rows position op left right type tables f left₁ tables₁ f₁ right₁ tables' f' left₂ right₂
        left₃ right₃}
      (first : Resolved schema native (.fitted rows .value left tables f left₁ tables₁ f₁))
      (second : Resolved schema native (.fitted rows .value right tables₁ f₁ right₁ tables' f'))
      (compared : identities op left₁ right₁ = .ok (left₂, right₂))
      (leftFits : Expr.adapted native .singleValue left₂ = .ok left₃)
      (rightFits : Expr.adapted native .singleValue right₂ = .ok right₃) :
      Resolved schema native
        (.expression rows position (.binary op left right type) tables f
          (.binary op left₃ right₃ type) tables' f')
  | composite {rows position e tables f e' tables' f'} (composite : e.kind.isComposite = true)
      (kind : e'.kind = e.kind) (type : e'.type = e.type)
      (isPredicate : e'.isPredicate = e.isPredicate) (wording : e'.wording = e.wording)
      (labels : e'.labels = e.labels)
      (slots : Resolved schema native (.slots rows e.slots tables f e'.slots tables' f')) :
      Resolved schema native (.expression rows position e tables f e' tables' f')
  | named {rows position name e tables f e' tables' f'}
      (inner : Resolved schema native (.fitted rows position e tables f e' tables' f')) :
      Resolved schema native
        (.expression rows position (.named ⟨name, e⟩) tables f (.named ⟨name, e'⟩) tables' f')
  | subStatement {rows position s tables f s' f'}
      (inner : Resolved schema native (.statement rows s f s' f')) :
      Resolved schema native
        (.expression rows position (.subStatement s) tables f (.subStatement s') tables f')
  | fitted {rows position e tables f e₁ tables' f' e'}
      (resolved : Resolved schema native (.expression rows position e tables f e₁ tables' f'))
      (fits : Expr.adapted native position e₁ = .ok e') :
      Resolved schema native (.fitted rows position e tables f e' tables' f')
  | noSlot {rows tables f} : Resolved schema native (.slots rows [] tables f [] tables f)
  | slot {rows position e slots tables f e' tables₁ f₁ slots' tables' f'}
      (first : Resolved schema native (.fitted rows position e tables f e' tables₁ f₁))
      (rest : Resolved schema native (.slots rows slots tables₁ f₁ slots' tables' f')) :
      Resolved schema native
        (.slots rows ((position, e) :: slots) tables f ((position, e') :: slots') tables' f')
  | unresolvedSource {rows itemType f source f'}
      (mapped : (Mapping.ofSchema schema).source itemType f = .ok (source, f')) :
      Resolved schema native (.source rows (.unresolved itemType) f source f')
  | tableSource {rows itemType tableName tableAlias f} :
      Resolved schema native
        (.source rows (.table itemType tableName tableAlias) f (.table itemType tableName tableAlias) f)
  | statementSource {rows tableAlias s f s' f'}
      (inner : Resolved schema native (.statement rows s f s' f')) :
      Resolved schema native (.source rows (.statement tableAlias s) f (.statement tableAlias s') f')
  | noTable {rows f} : Resolved schema native (.tables rows [] f [] rows f)
  | table {rows key source kind joins others f source' f₁ row others' rows' f'}
      (first : Resolved schema native (.source rows source f source' f₁))
      (exposed : source'.row schema .sourceLeftUnresolved = .ok row)
      (rest : Resolved schema native (.tables ((key, row) :: rows) others f₁ others' rows' f')) :
      Resolved schema native
        (.tables rows (⟨key, source, kind, joins⟩ :: others) f
          (⟨key, source', kind, joins⟩ :: others') rows' f')
  | statement {rows s f tables₁ rows₁ f₁ tables₂ f₂ root s' f'}
      (sources : Resolved schema native (.tables rows s.tables f tables₁ rows₁ f₁))
      (joins : resolveTableJoins (Mapping.ofSchema schema) tables₁ f₁ = .ok (tables₂, f₂))
      (slots : Resolved schema native
        (.slots rows₁ s.slots tables₂ f₂ ((.value, root) :: s'.clauses) s'.tables f'))
      (projection : s'.projection = s.projection.renamed root)
      (shape : s'.shape = if s'.projection.type = s.projection.type then s.shape
        else s.shape.withRowType s'.projection.type)
      (isDistinct : s'.isDistinct = s.isDistinct)
      (condition : ∀ c, s'.condition = some c → c.type.isBoolean = true) :
      Resolved schema native (.statement rows s f s' f')

mutual

theorem Join.resolve_of_linked (mapping : Mapping) (join : Join)
    (h : ∀ link ∈ join.links, ∀ origin member, link ≠ .unresolved origin member) :
    join.resolve mapping = pure join := by
  obtain ⟨member, kind, link, joins⟩ := join
  rw [Join.links, List.forall_mem_cons] at h
  obtain ⟨target, rfl, resolved⟩ := Link.resolve_resolved mapping h.1
  simp only [Join.resolve, resolved, resolveJoins_of_linked mapping joins h.2, pure_bind]

theorem resolveJoins_of_linked (mapping : Mapping) (joins : List Join)
    (h : ∀ link ∈ joinLinks joins, ∀ origin member, link ≠ .unresolved origin member) :
    resolveJoins mapping joins = pure joins := by
  cases joins with
  | nil => rfl
  | cons join rest =>
    rw [joinLinks, List.forall_mem_append] at h
    simp only [resolveJoins, join.resolve_of_linked mapping h.1,
      resolveJoins_of_linked mapping rest h.2, pure_bind]

end

/-- Joins that are mapped stay what they are. -/
theorem resolveTableJoins_of_linked (mapping : Mapping) {tables : List Table}
    (h : Linked tables) : resolveTableJoins mapping tables = pure tables := by
  induction tables with
  | nil => rfl
  | cons table rest ih =>
    obtain ⟨key, source, kind, joins⟩ := table
    rw [Linked, tableLinks_cons, List.forall_mem_append] at h
    simp only [resolveTableJoins, resolveJoins_of_linked mapping joins h.1, ih h.2, pure_bind]

variable {schema : Schema} {native : Bool}

theorem Resolved.append {rows : Rows} {slots others slots' others' : List (Position × Expr)}
    {tables tables₁ tables' : List Table} {f f₁ f' : Fresh}
    (h : Resolved schema native (.slots rows slots tables f slots' tables₁ f₁))
    (h' : Resolved schema native (.slots rows others tables₁ f₁ others' tables' f')) :
    Resolved schema native
      (.slots rows (slots ++ others) tables f (slots' ++ others') tables' f') := by
  induction slots generalizing tables f slots' with
  | nil =>
    cases h
    exact h'
  | cons slot rest ih =>
    cases h with
    | slot first later => exact .slot first (ih later)

theorem Statement.checked_self {s : Statement} :
    s.checked = .ok s ↔ ∀ c, s.condition = some c → c.type.isBoolean = true := by
  unfold Statement.checked
  cases s.condition with
  | none => simp
  | some c =>
    cases hc : c.type.isBoolean <;> simp [hc]

theorem Resolver.fit_eq_ok {r : Resolver} {position : Position} {x : Joining Expr}
    {tables tables' : List Table} {f f' : Fresh} {e : Expr} :
    r.fit position x tables f = .ok ((e, tables'), f') ↔
      ∃ e₁, x tables f = .ok ((e₁, tables'), f') ∧
        Expr.adapted r.nativeBoolean position e₁ = .ok e := by
  refine Joining.bind_eq_ok.trans ?_
  constructor
  · rintro ⟨e₁, tables₁, f₁, hx, h⟩
    obtain ⟨fits, rfl, rfl⟩ := Joining.lift_eq_ok.mp h
    exact ⟨e₁, hx, fits⟩
  · rintro ⟨e₁, hx, h⟩
    exact ⟨e₁, tables', f', hx, Joining.lift_eq_ok.mpr ⟨h, rfl, rfl⟩⟩

/-- Further passes follow the rules. -/
def Reentry.Follows (schema : Schema) (native : Bool) (again : Reentry) : Prop :=
  ∀ rows position e tables f e' tables' f',
    again.expression rows position e tables f = .ok ((e', tables'), f') →
      Resolved schema native (.expression rows position e tables f e' tables' f')

section Rules

variable {again : Reentry} {rows : Rows} {position : Position} {tables tables' : List Table}
  {f f' : Fresh}

/-- An expression that is resolved by the rules is adapted by them. -/
theorem resolved_of_fit {e e' : Expr}
    (rule : ∀ e₁, e.resolve ⟨Mapping.ofSchema schema, native⟩ again rows position tables f =
        .ok ((e₁, tables'), f') →
      Resolved schema native (.expression rows position e tables f e₁ tables' f'))
    (h : Resolver.fit ⟨Mapping.ofSchema schema, native⟩ position
      (e.resolve ⟨Mapping.ofSchema schema, native⟩ again rows position) tables f =
        .ok ((e', tables'), f')) :
    Resolved schema native (.fitted rows position e tables f e' tables' f') := by
  obtain ⟨e₁, resolved, fits⟩ := Resolver.fit_eq_ok.mp h
  exact .fitted (rule e₁ resolved) fits

theorem Resolved.one {e e' : Expr}
    (h : Resolved schema native (.fitted rows position e tables f e' tables' f')) :
    Resolved schema native
      (.slots rows [(position, e)] tables f [(position, e')] tables' f') := .slot h .noSlot

/-- The members of a compound keep their names. -/
theorem labels_of_resolveMembers {r : Resolver} {members members' : List Named}
    (h : resolveMembers r again rows members tables f = .ok ((members', tables'), f')) :
    members'.map Named.name = members.map Named.name := by
  induction members generalizing tables f members' with
  | nil =>
    obtain ⟨rfl, -, -⟩ := Joining.pure_eq_ok.mp h
    rfl
  | cons n rest ih =>
    obtain ⟨name, e⟩ := n
    simp only [resolveMembers] at h
    obtain ⟨e', tables₁, f₁, -, h⟩ := Joining.bind_eq_ok.mp h
    obtain ⟨rest', tables₂, f₂, hr, h⟩ := Joining.bind_eq_ok.mp h
    obtain ⟨rfl, rfl, rfl⟩ := Joining.pure_eq_ok.mp h
    rw [List.map_cons, List.map_cons, ih hr]

/-- A projection with a name is resolved under its name. -/
theorem resolved_projection {projection projection' : Expr}
    (h : Resolved schema native (.fitted rows .value projection tables f projection' tables' f')) :
    ∃ root, Resolved schema native
        (.fitted rows .value projection.unnamed tables f root tables' f') ∧
      projection' = projection.renamed root := by
  cases projection with
  | named n =>
    obtain ⟨name, e⟩ := n
    cases h with
    | fitted resolved fits =>
      cases resolved with
      | leaf leaf => cases leaf
      | composite composite => cases composite
      | named inner =>
        rename_i e'
        have value : (Expr.named ⟨name, e'⟩).Fits native .value := fun _ => rfl
        have same := Except.ok.inj ((Expr.adapted_of_fits value).symm.trans fits)
        exact ⟨_, inner, same.symm⟩
  | _ => exact ⟨projection', h, rfl⟩

end Rules

mutual

theorem Expr.resolved_of_resolve {again : Reentry} (ha : again.Follows schema native)
    {rows : Rows} {position : Position} (e : Expr) {tables tables' : List Table} {f f' : Fresh}
    {e' : Expr}
    (h : e.resolve ⟨Mapping.ofSchema schema, native⟩ again rows position tables f =
      .ok ((e', tables'), f')) :
    Resolved schema native (.expression rows position e tables f e' tables' f') := by
  cases e with
  | column | literal | customText | entity | entityReference | entityConstant =>
    obtain ⟨rfl, rfl, rfl⟩ := Joining.pure_eq_ok.mp h
    exact .leaf rfl
  | constant value type =>
    obtain ⟨mapped, rfl, rfl⟩ := Joining.lift_eq_ok.mp h
    exact .constant mapped
  | tableReference key type =>
    simp only [Expr.resolve] at h
    cases found : rows.lookup key with
    | some row =>
      rw [found] at h
      obtain ⟨rfl, rfl, rfl⟩ := Joining.pure_eq_ok.mp h
      exact .tableReference found
    | none =>
      rw [found] at h
      exact (Joining.throw_ne_ok.mp h).elim
  | member source name type =>
    simp only [Expr.resolve] at h
    obtain ⟨source', tables₁, f₁, hs, h⟩ := Joining.bind_eq_ok.mp h
    obtain ⟨found, tables₂, f₂, hm, h⟩ := Joining.bind_eq_ok.mp h
    obtain ⟨mapped, rfl, rfl⟩ := Joining.lift_eq_ok.mp hm
    exact .member (resolved_of_fit (fun _ => source.resolved_of_resolve ha) hs) mapped
      (ha _ _ _ _ _ _ _ _ h)
  | navigation e member type => exact .navigation h
  | call c => exact (Joining.throw_ne_ok.mp h).elim
  | binary op left right type =>
    simp only [Expr.resolve] at h
    obtain ⟨left₁, tables₁, f₁, hl, h⟩ := Joining.bind_eq_ok.mp h
    obtain ⟨right₁, tables₂, f₂, hr, h⟩ := Joining.bind_eq_ok.mp h
    obtain ⟨⟨left₂, right₂⟩, tables₃, f₃, hi, h⟩ := Joining.bind_eq_ok.mp h
    obtain ⟨compared, rfl, rfl⟩ := Joining.lift_eq_ok.mp hi
    obtain ⟨left₃, tables₄, f₄, hl₃, h⟩ := Joining.bind_eq_ok.mp h
    obtain ⟨_, hp, leftFits⟩ := Resolver.fit_eq_ok.mp hl₃
    obtain ⟨rfl, rfl, rfl⟩ := Joining.pure_eq_ok.mp hp
    obtain ⟨right₃, tables₅, f₅, hr₃, h⟩ := Joining.bind_eq_ok.mp h
    obtain ⟨_, hp, rightFits⟩ := Resolver.fit_eq_ok.mp hr₃
    obtain ⟨rfl, rfl, rfl⟩ := Joining.pure_eq_ok.mp hp
    obtain ⟨rfl, rfl, rfl⟩ := Joining.pure_eq_ok.mp h
    exact .binary (resolved_of_fit (fun _ => left.resolved_of_resolve ha) hl)
      (resolved_of_fit (fun _ => right.resolved_of_resolve ha) hr) compared leftFits rightFits
  | like expression pattern =>
    simp only [Expr.resolve] at h
    obtain ⟨expression', tables₁, f₁, he, h⟩ := Joining.bind_eq_ok.mp h
    obtain ⟨pattern', tables₂, f₂, hp, h⟩ := Joining.bind_eq_ok.mp h
    obtain ⟨rfl, rfl, rfl⟩ := Joining.pure_eq_ok.mp h
    exact .composite rfl rfl rfl rfl rfl rfl
      (.slot (resolved_of_fit (fun _ => expression.resolved_of_resolve ha) he)
        (.one (resolved_of_fit (fun _ => pattern.resolved_of_resolve ha) hp)))
  | likeEscape value =>
    simp only [Expr.resolve] at h
    obtain ⟨value', tables₁, f₁, hv, h⟩ := Joining.bind_eq_ok.mp h
    obtain ⟨rfl, rfl, rfl⟩ := Joining.pure_eq_ok.mp h
    exact .composite rfl rfl rfl rfl rfl rfl
      (.one (resolved_of_fit (fun _ => value.resolved_of_resolve ha) hv))
  | logical op left right =>
    simp only [Expr.resolve] at h
    obtain ⟨left', tables₁, f₁, hl, h⟩ := Joining.bind_eq_ok.mp h
    obtain ⟨right', tables₂, f₂, hr, h⟩ := Joining.bind_eq_ok.mp h
    obtain ⟨rfl, rfl, rfl⟩ := Joining.pure_eq_ok.mp h
    exact .composite rfl rfl rfl rfl rfl rfl
      (.slot (resolved_of_fit (fun _ => left.resolved_of_resolve ha) hl)
        (.one (resolved_of_fit (fun _ => right.resolved_of_resolve ha) hr)))
  | not operand =>
    simp only [Expr.resolve] at h
    obtain ⟨operand', tables₁, f₁, ho, h⟩ := Joining.bind_eq_ok.mp h
    obtain ⟨rfl, rfl, rfl⟩ := Joining.pure_eq_ok.mp h
    exact .composite rfl rfl rfl rfl rfl rfl
      (.one (resolved_of_fit (fun _ => operand.resolved_of_resolve ha) ho))
  | case branches otherwise type =>
    simp only [Expr.resolve] at h
    obtain ⟨branches', tables₁, f₁, hb, h⟩ := Joining.bind_eq_ok.mp h
    obtain ⟨otherwise', tables₂, f₂, ho, h⟩ := Joining.bind_eq_ok.mp h
    obtain ⟨rfl, rfl, rfl⟩ := Joining.pure_eq_ok.mp h
    exact .composite rfl rfl rfl rfl rfl rfl
      (.append (resolved_of_resolveBranches ha branches hb)
        (resolved_of_resolveOption ha otherwise ho))
  | function name args type isPredicate =>
    simp only [Expr.resolve] at h
    obtain ⟨args', tables₁, f₁, hargs, h⟩ := Joining.bind_eq_ok.mp h
    obtain ⟨rfl, rfl, rfl⟩ := Joining.pure_eq_ok.mp h
    exact .composite rfl rfl rfl rfl rfl rfl (resolved_of_resolveArgs ha args hargs)
  | convert target value type =>
    simp only [Expr.resolve] at h
    obtain ⟨value', tables₁, f₁, hv, h⟩ := Joining.bind_eq_ok.mp h
    obtain ⟨rfl, rfl, rfl⟩ := Joining.pure_eq_ok.mp h
    exact .composite rfl rfl rfl rfl rfl rfl
      (.one (resolved_of_fit (fun _ => value.resolved_of_resolve ha) hv))
  | aggregation aggregate value type =>
    simp only [Expr.resolve] at h
    obtain ⟨value', tables₁, f₁, hv, h⟩ := Joining.bind_eq_ok.mp h
    obtain ⟨rfl, rfl, rfl⟩ := Joining.pure_eq_ok.mp h
    exact .composite rfl rfl rfl rfl rfl rfl
      (.one (resolved_of_fit (fun _ => value.resolved_of_resolve ha) hv))
  | rowNumber orderings =>
    simp only [Expr.resolve] at h
    obtain ⟨orderings', tables₁, f₁, ho, h⟩ := Joining.bind_eq_ok.mp h
    obtain ⟨rfl, rfl, rfl⟩ := Joining.pure_eq_ok.mp h
    exact .composite rfl rfl rfl rfl rfl rfl (resolved_of_resolveOrderings ha orderings ho)
  | named n =>
    obtain ⟨name, e⟩ := n
    simp only [Expr.resolve] at h
    obtain ⟨e', tables₁, f₁, he, h⟩ := Joining.bind_eq_ok.mp h
    obtain ⟨rfl, rfl, rfl⟩ := Joining.pure_eq_ok.mp h
    exact .named (resolved_of_fit (fun _ => e.resolved_of_resolve ha) he)
  | compound members =>
    simp only [Expr.resolve] at h
    obtain ⟨members', tables₁, f₁, hm, h⟩ := Joining.bind_eq_ok.mp h
    obtain ⟨rfl, rfl, rfl⟩ := Joining.pure_eq_ok.mp h
    exact .composite rfl rfl rfl rfl rfl (labels_of_resolveMembers hm)
      (resolved_of_resolveMembers ha members hm)
  | subStatement statement =>
    simp only [Expr.resolve] at h
    obtain ⟨statement', tables₁, f₁, hs, h⟩ := Joining.bind_eq_ok.mp h
    obtain ⟨inner, rfl⟩ := Joining.liftSupply_eq_ok.mp hs
    obtain ⟨rfl, rfl, rfl⟩ := Joining.pure_eq_ok.mp h
    exact .subStatement (statement.resolved_of_resolveIn ha inner)
termination_by structural e

theorem resolved_of_resolveOption {again : Reentry} (ha : again.Follows schema native)
    {rows : Rows} {position : Position} (e : Option Expr) {tables tables' : List Table}
    {f f' : Fresh} {e' : Option Expr}
    (h : resolveOption ⟨Mapping.ofSchema schema, native⟩ again rows position e tables f =
      .ok ((e', tables'), f')) :
    Resolved schema native (.slots rows (e.toList.map (position, ·)) tables f
      (e'.toList.map (position, ·)) tables' f') := by
  cases e with
  | none =>
    obtain ⟨rfl, rfl, rfl⟩ := Joining.pure_eq_ok.mp h
    exact .noSlot
  | some e =>
    simp only [resolveOption] at h
    obtain ⟨e', tables₁, f₁, he, h⟩ := Joining.bind_eq_ok.mp h
    obtain ⟨rfl, rfl, rfl⟩ := Joining.pure_eq_ok.mp h
    exact .one (resolved_of_fit (fun _ => e.resolved_of_resolve ha) he)
termination_by structural e

theorem resolved_of_resolveArgs {again : Reentry} (ha : again.Follows schema native)
    {rows : Rows} (args : List Expr) {tables tables' : List Table} {f f' : Fresh}
    {args' : List Expr}
    (h : resolveArgs ⟨Mapping.ofSchema schema, native⟩ again rows args tables f =
      .ok ((args', tables'), f')) :
    Resolved schema native (.slots rows (args.map (.singleValue, ·)) tables f
      (args'.map (.singleValue, ·)) tables' f') := by
  cases args with
  | nil =>
    obtain ⟨rfl, rfl, rfl⟩ := Joining.pure_eq_ok.mp h
    exact .noSlot
  | cons e rest =>
    simp only [resolveArgs] at h
    obtain ⟨e', tables₁, f₁, he, h⟩ := Joining.bind_eq_ok.mp h
    obtain ⟨rest', tables₂, f₂, hr, h⟩ := Joining.bind_eq_ok.mp h
    obtain ⟨rfl, rfl, rfl⟩ := Joining.pure_eq_ok.mp h
    exact .slot (resolved_of_fit (fun _ => e.resolved_of_resolve ha) he)
      (resolved_of_resolveArgs ha rest hr)
termination_by structural args

theorem resolved_of_resolveBranches {again : Reentry} (ha : again.Follows schema native)
    {rows : Rows} (branches : List (Expr × Expr)) {tables tables' : List Table} {f f' : Fresh}
    {branches' : List (Expr × Expr)}
    (h : resolveBranches ⟨Mapping.ofSchema schema, native⟩ again rows branches tables f =
      .ok ((branches', tables'), f')) :
    Resolved schema native
      (.slots rows
        (branches.flatMap fun branch => [(.predicate, branch.1), (.singleValue, branch.2)]) tables f
        (branches'.flatMap fun branch => [(.predicate, branch.1), (.singleValue, branch.2)])
        tables' f') := by
  cases branches with
  | nil =>
    obtain ⟨rfl, rfl, rfl⟩ := Joining.pure_eq_ok.mp h
    exact .noSlot
  | cons branch rest =>
    obtain ⟨test, value⟩ := branch
    simp only [resolveBranches] at h
    obtain ⟨test', tables₁, f₁, ht, h⟩ := Joining.bind_eq_ok.mp h
    obtain ⟨value', tables₂, f₂, hv, h⟩ := Joining.bind_eq_ok.mp h
    obtain ⟨rest', tables₃, f₃, hr, h⟩ := Joining.bind_eq_ok.mp h
    obtain ⟨rfl, rfl, rfl⟩ := Joining.pure_eq_ok.mp h
    exact .slot (resolved_of_fit (fun _ => test.resolved_of_resolve ha) ht)
      (.slot (resolved_of_fit (fun _ => value.resolved_of_resolve ha) hv)
        (resolved_of_resolveBranches ha rest hr))
termination_by structural branches

theorem resolved_of_resolveOrderings {again : Reentry} (ha : again.Follows schema native)
    {rows : Rows} (orderings : List Ordering) {tables tables' : List Table} {f f' : Fresh}
    {orderings' : List Ordering}
    (h : resolveOrderings ⟨Mapping.ofSchema schema, native⟩ again rows orderings tables f =
      .ok ((orderings', tables'), f')) :
    Resolved schema native
      (.slots rows (orderings.map fun ordering => (.singleValue, ordering.expression)) tables f
        (orderings'.map fun ordering => (.singleValue, ordering.expression)) tables' f') := by
  cases orderings with
  | nil =>
    obtain ⟨rfl, rfl, rfl⟩ := Joining.pure_eq_ok.mp h
    exact .noSlot
  | cons ordering rest =>
    obtain ⟨e, direction⟩ := ordering
    simp only [resolveOrderings] at h
    obtain ⟨e', tables₁, f₁, he, h⟩ := Joining.bind_eq_ok.mp h
    obtain ⟨rest', tables₂, f₂, hr, h⟩ := Joining.bind_eq_ok.mp h
    obtain ⟨rfl, rfl, rfl⟩ := Joining.pure_eq_ok.mp h
    exact .slot (resolved_of_fit (fun _ => e.resolved_of_resolve ha) he)
      (resolved_of_resolveOrderings ha rest hr)
termination_by structural orderings

theorem resolved_of_resolveMembers {again : Reentry} (ha : again.Follows schema native)
    {rows : Rows} (members : List Named) {tables tables' : List Table} {f f' : Fresh}
    {members' : List Named}
    (h : resolveMembers ⟨Mapping.ofSchema schema, native⟩ again rows members tables f =
      .ok ((members', tables'), f')) :
    Resolved schema native
      (.slots rows (members.map fun n => (.value, n.expression)) tables f
        (members'.map fun n => (.value, n.expression)) tables' f') := by
  cases members with
  | nil =>
    obtain ⟨rfl, rfl, rfl⟩ := Joining.pure_eq_ok.mp h
    exact .noSlot
  | cons n rest =>
    obtain ⟨name, e⟩ := n
    simp only [resolveMembers] at h
    obtain ⟨e', tables₁, f₁, he, h⟩ := Joining.bind_eq_ok.mp h
    obtain ⟨rest', tables₂, f₂, hr, h⟩ := Joining.bind_eq_ok.mp h
    obtain ⟨rfl, rfl, rfl⟩ := Joining.pure_eq_ok.mp h
    exact .slot (resolved_of_fit (fun _ => e.resolved_of_resolve ha) he)
      (resolved_of_resolveMembers ha rest hr)
termination_by structural members

theorem Source.resolved_of_resolve {again : Reentry} (ha : again.Follows schema native)
    {rows : Rows} (source : Source) {f f' : Fresh} {source' : Source}
    (h : source.resolve ⟨Mapping.ofSchema schema, native⟩ again rows f = .ok (source', f')) :
    Resolved schema native (.source rows source f source' f') := by
  cases source with
  | unresolved itemType =>
    simp only [Source.resolve] at h
    obtain ⟨found, f₁, mapped, h⟩ := Supply.bind_eq_ok.mp h
    obtain ⟨mapping, -, rfl, -⟩ := Mapping.source_eq_ok mapped
    obtain ⟨rfl, rfl⟩ := Supply.pure_eq_ok.mp h
    exact .unresolvedSource mapped
  | table itemType tableName tableAlias =>
    obtain ⟨rfl, rfl⟩ := Supply.pure_eq_ok.mp h
    exact .tableSource
  | statement tableAlias s =>
    simp only [Source.resolve] at h
    obtain ⟨s', f₁, hs, h⟩ := Supply.bind_eq_ok.mp h
    obtain ⟨rfl, rfl⟩ := Supply.pure_eq_ok.mp h
    exact .statementSource (s.resolved_of_resolveIn ha hs)
termination_by structural source

theorem resolved_of_resolveTables {again : Reentry} (ha : again.Follows schema native)
    {rows : Rows} (tables : List Table) {f f' : Fresh} {tables' : List Table} {rows' : Rows}
    (h : resolveTables ⟨Mapping.ofSchema schema, native⟩ again rows tables f =
      .ok ((tables', rows'), f')) :
    Resolved schema native (.tables rows tables f tables' rows' f') := by
  cases tables with
  | nil =>
    obtain ⟨same, rfl⟩ := Supply.pure_eq_ok.mp h
    obtain ⟨rfl, rfl⟩ := Prod.mk.inj same
    exact .noTable
  | cons table rest =>
    obtain ⟨key, source, kind, joins⟩ := table
    simp only [resolveTables] at h
    obtain ⟨source', f₁, hs, h⟩ := Supply.bind_eq_ok.mp h
    obtain ⟨row, f₂, hrow, h⟩ := Supply.bind_eq_ok.mp h
    obtain ⟨exposed, rfl⟩ := Supply.lift_eq_ok.mp hrow
    obtain ⟨⟨rest', rows₁⟩, f₃, hr, h⟩ := Supply.bind_eq_ok.mp h
    obtain ⟨same, rfl⟩ := Supply.pure_eq_ok.mp h
    obtain ⟨rfl, rfl⟩ := Prod.mk.inj same
    exact .table (source.resolved_of_resolve ha hs) exposed (resolved_of_resolveTables ha rest hr)
termination_by structural tables

theorem Statement.resolved_of_resolveIn {again : Reentry} (ha : again.Follows schema native)
    {rows : Rows} (s : Statement) {f f' : Fresh} {s' : Statement}
    (h : s.resolveIn ⟨Mapping.ofSchema schema, native⟩ again rows f = .ok (s', f')) :
    Resolved schema native (.statement rows s f s' f') := by
  obtain ⟨projection, tables, condition, grouping, orderings, top, isDistinct, rowNumber, rowOffset,
    shape⟩ := s
  simp only [Statement.resolveIn] at h
  obtain ⟨⟨tables₁, rows₁⟩, f₁, ht, h⟩ := Supply.bind_eq_ok.mp h
  obtain ⟨tables₂, f₂, hj, h⟩ := Supply.bind_eq_ok.mp h
  obtain ⟨⟨s₁, tables₃⟩, f₃, he, h⟩ := Supply.bind_eq_ok.mp h
  obtain ⟨checked, rfl⟩ := Supply.lift_eq_ok.mp h
  obtain rfl := Statement.checked_eq_ok checked
  obtain ⟨projection', tables₄, f₄, hp, he⟩ := Joining.bind_eq_ok.mp he
  obtain ⟨condition', tables₅, f₅, hc, he⟩ := Joining.bind_eq_ok.mp he
  obtain ⟨grouping', tables₆, f₆, hg, he⟩ := Joining.bind_eq_ok.mp he
  obtain ⟨orderings', tables₇, f₇, ho, he⟩ := Joining.bind_eq_ok.mp he
  obtain ⟨top', tables₈, f₈, htop, he⟩ := Joining.bind_eq_ok.mp he
  obtain ⟨rowNumber', tables₉, f₉, hn, he⟩ := Joining.bind_eq_ok.mp he
  obtain ⟨rowOffset', tables', f', hoff, he⟩ := Joining.bind_eq_ok.mp he
  rw [Joining.get_bind] at he
  obtain ⟨rfl, rfl, rfl⟩ := Joining.pure_eq_ok.mp he
  obtain ⟨root, hroot, rfl⟩ := resolved_projection
    (resolved_of_fit (fun _ => projection.resolved_of_resolve ha) hp)
  refine .statement (resolved_of_resolveTables ha tables ht) hj (.slot hroot ?_) rfl rfl rfl
    (Statement.checked_self.mp checked)
  exact (((((resolved_of_resolveOption ha condition hc).append
    (resolved_of_resolveOption ha grouping hg)).append
    (resolved_of_resolveOrderings ha orderings ho)).append
    (resolved_of_resolveOption ha top htop)).append
    (resolved_of_resolveOption ha rowNumber hn)).append
    (resolved_of_resolveOption ha rowOffset hoff)
termination_by structural s

end

theorem Reentry.upTo_follows (depth : Nat) :
    (Reentry.upTo ⟨Mapping.ofSchema schema, native⟩ depth).Follows schema native := by
  induction depth with
  | zero =>
    intro rows position e tables f e' tables' f' h
    exact (Joining.throw_ne_ok.mp h).elim
  | succ depth ih =>
    intro rows position e tables f e' tables' f' h
    exact e.resolved_of_resolve ih h

/-- A statement that is resolved is resolved by the rules, in a scope of its own. -/
theorem Statement.resolved_of_resolve {s s' : Statement} {f f' : Fresh}
    (h : s.resolve (Mapping.ofSchema schema) native f = .ok (s', f')) :
    Resolved schema native (.statement [] s f s' f') :=
  s.resolved_of_resolveIn (Reentry.upTo_follows _) h

end Comprehension.Sql
