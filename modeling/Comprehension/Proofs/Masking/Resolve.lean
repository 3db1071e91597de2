import Comprehension.Proofs.JoinTree
import Comprehension.Proofs.Masking.Sql
import Comprehension.Resolved.Statement

/-!
Resolution without a look at the values of constants: a masked statement is resolved to the masked
result, or both fail.
-/
namespace Comprehension

namespace Schema

theorem constant_masked (s : Schema) (value : Value) (type : ValueType) :
    s.constant value.masked type = (s.constant value type).map Sql.Expr.masked := by
  cases value with
  | entity typeName id =>
    simp only [constant, Value.masked]
    cases s.typeMapping typeName with
    | error e => rfl
    | ok mapping =>
      cases h : mapping.column? mapping.primaryKey <;>
        simp [bind, Except.bind, h, Except.map, pure, Except.pure, throw, throwThe,
          MonadExceptOf.throw, Sql.Expr.masked, Value.masked]
  | _ => simp [constant, Value.masked, Except.map, Sql.Expr.masked]

/-- What a member of an entity stands for holds no constants. -/
theorem member_masked (s : Schema) (e : Sql.Entity) (name : String) :
    (s.member e name).map Sql.Expr.masked = s.member e name := by
  unfold member
  cases s.typeMapping e.itemType with
  | error e => rfl
  | ok mapping =>
    simp only [bind, Except.bind]
    cases mapping.relations.lookup name with
    | some relation => rfl
    | none =>
      cases mapping.column e.itemType name e.tableAlias <;>
        simp [Except.map, pure, Except.pure, Sql.Expr.masked]

end Schema

namespace Sql

@[simp] theorem joinsMasked_cons (join : Join) (rest : List Join) :
    joinsMasked (join :: rest) = join.masked :: joinsMasked rest := by
  cases join
  rfl

@[simp] theorem tablesMasked_cons (table : Table) (rest : List Table) :
    tablesMasked (table :: rest) = table.masked :: tablesMasked rest := by
  cases table
  rfl

namespace Expr

theorem exposed_named_masked (tableAlias : String) (n : Named) :
    n.masked.exposed tableAlias = n.exposed tableAlias := by
  obtain ⟨name, e⟩ := n
  cases e with
  | named n =>
    cases n
    simp [Named.exposed, Named.masked, masked, Named.effectiveName, type]
  | _ => simp [Named.exposed, Named.masked, masked, Named.effectiveName, type]

theorem masked_exposed_named (tableAlias : String) (n : Named) :
    (n.exposed tableAlias).masked = n.exposed tableAlias := by
  unfold Named.exposed
  split <;> rfl

/-- Seen from outside, a projection is made of columns and references, whatever its constants. -/
theorem exposed_masked (tableAlias : String) (e : Expr) :
    e.masked.exposed tableAlias = (e.exposed tableAlias).masked := by
  cases e with
  | named n => simp [exposed, masked_named, exposed_named_masked, masked_exposed_named]
  | compound members =>
    simp only [exposed, masked, membersMasked_eq, List.map_map, Function.comp_def,
      exposed_named_masked]
    simp [Named.masked, masked_exposed_named]
  | _ => simp [exposed, masked, type]

theorem identity_masked : ∀ e : Expr, e.masked.identity = e.identity.map masked
  | .named ⟨_, e⟩ => by simpa [masked, identity] using identity_masked e
  | .entityConstant .. => by simp [masked, identity, Except.map]
  | .entity _ => by simp [masked, identity, Except.map]
  | .entityReference .. => by simp [masked, identity, Except.map]
  | .constant value type => by
    cases value <;> simp [masked, Value.masked, identity, isNullConstant, Except.map, kind]
  | .literal l => by cases l <;> simp [masked, identity, isNullConstant, Except.map, kind]
  | .subStatement _ | .column _ | .customText .. | .navigation .. | .binary .. | .like ..
  | .likeEscape _ | .logical .. | .not _ | .case .. | .function .. | .convert .. | .aggregation ..
  | .rowNumber _ | .compound _ | .tableReference .. | .member .. | .call _ => by
    simp [masked, identity, isNullConstant, Except.map, kind]

theorem memberOf_masked (schema : Schema) (member : String) :
    ∀ e : Expr, e.masked.memberOf schema member = (e.memberOf schema member).map masked
  | .named ⟨_, e⟩ => by simpa [masked, memberOf] using memberOf_masked schema member e
  | .entity e => by simp only [masked, memberOf, Schema.member_masked]
  | .column c => rfl
  | .entityReference tableAlias name e => by
    simp only [masked, memberOf]
    cases schema.member e member with
    | error err => rfl
    | ok found => cases found <;> rfl
  | .compound members => by
    have h : (membersMasked members).find? (fun n => n.name = some member) =
        (members.find? fun n => n.name = some member).map Named.masked := by
      rw [membersMasked_eq, List.find?_map]
      rfl
    simp only [masked, memberOf, h]
    cases members.find? fun n => n.name = some member <;> rfl
  | .constant .. | .literal _ | .subStatement _ | .customText .. | .navigation .. | .binary ..
  | .like .. | .likeEscape _ | .logical .. | .not _ | .case .. | .function .. | .convert ..
  | .aggregation .. | .rowNumber _ | .tableReference .. | .member .. | .call _
  | .entityConstant .. => by
    simp [masked, memberOf, Except.map, kind]

end Expr

theorem identities_masked (op : BinaryOp) (left right : Expr) :
    identities op left.masked right.masked =
      (identities op left right).map (Prod.map Expr.masked Expr.masked) := by
  simp only [identities, Expr.type_masked, Expr.identity_masked]
  split
  · cases left.identity with
    | error e => rfl
    | ok l => cases right.identity <;> rfl
  · rfl

theorem Statement.checked_masked (s : Statement) :
    s.masked.checked = s.checked.map Statement.masked := by
  unfold checked
  rw [condition_masked]
  cases s.condition with
  | none => rfl
  | some condition =>
    simp only [Option.map_some, Expr.type_masked, Expr.kind_masked]
    split <;> rfl

theorem Source.row_masked (schema : Schema) (unresolved : String → Violation) (source : Source) :
    source.masked.row schema unresolved = (source.row schema unresolved).map Expr.masked := by
  cases source with
  | unresolved itemType => rfl
  | table itemType tableName tableAlias =>
    simp only [masked, row]
    cases schema.entity itemType tableAlias <;> rfl
  | statement tableAlias s => simp [masked, row, Except.map, Expr.exposed_masked]

@[simp] theorem Source.tableAlias?_masked (source : Source) :
    source.masked.tableAlias? = source.tableAlias? := by
  cases source <;> simp [masked, tableAlias?]

@[simp] theorem Link.tableAlias?_masked (link : Link) : link.masked.tableAlias? = link.tableAlias? := by
  cases link <;> simp [masked, tableAlias?]

namespace Join

@[simp] theorem masked_mk (member : String) (kind : JoinKind) (link : Link) (joins : List Join) :
    masked ⟨member, kind, link, joins⟩ = ⟨member, kind, link.masked, joinsMasked joins⟩ := rfl

theorem find?_masked (member : String) (joins : List Join) :
    find? member (joinsMasked joins) = (find? member joins).map masked := by
  induction joins with
  | nil => rfl
  | cons join rest ih =>
    by_cases h : join.member = member <;> simp [find?, h, ih, masked]

theorem put_masked (join : Join) (joins : List Join) :
    put join.masked (joinsMasked joins) = joinsMasked (put join joins) := by
  induction joins with
  | nil => simp [put, joinsMasked]
  | cons first rest ih =>
    have hm : first.masked.member = first.member := rfl
    have hj : join.masked.member = join.member := rfl
    by_cases h : first.member = join.member <;> simp [put, h, ih, hm, hj]

theorem getOrAdd_masked (member : String) (kind : JoinKind) (origin : Entity) (joins : List Join) :
    getOrAdd member kind (.unresolved origin member) (joinsMasked joins) =
      Prod.map masked joinsMasked (getOrAdd member kind (.unresolved origin member) joins) := by
  unfold getOrAdd
  rw [find?_masked]
  cases find? member joins with
  | some join => rfl
  | none => simp [joinsMasked_eq, masked, Link.masked]

end Join

/-- Two places in join trees, one below the mask of what the other is below. -/
def FocusMasked {α : Type} (mask : α → α) (place place' : List Join × (List Join → α)) : Prop :=
  place'.1 = joinsMasked place.1 ∧ ∀ joins, place'.2 (joinsMasked joins) = mask (place.2 joins)

mutual

theorem Join.focus_masked (tableAlias : String) (join : Join) :
    Option.Rel (FocusMasked Join.masked) (join.focus tableAlias) (join.masked.focus tableAlias) := by
  obtain ⟨member, kind, link, joins⟩ := join
  simp only [Join.masked_mk, Join.focus, Link.tableAlias?_masked]
  split
  · exact .some ⟨rfl, fun joins => rfl⟩
  · have below := Join.focusIn_masked tableAlias joins
    generalize Join.focusIn tableAlias joins = place, Join.focusIn tableAlias (joinsMasked joins) = place' at below
    cases below with
    | none => exact .none
    | some h => exact .some ⟨h.1, fun joins => by simp [h.2]⟩

theorem Join.focusIn_masked (tableAlias : String) (joins : List Join) :
    Option.Rel (FocusMasked joinsMasked) (Join.focusIn tableAlias joins)
      (Join.focusIn tableAlias (joinsMasked joins)) := by
  cases joins with
  | nil => exact .none
  | cons join rest =>
    simp only [joinsMasked_cons, Join.focusIn]
    have first := Join.focus_masked tableAlias join
    have later := Join.focusIn_masked tableAlias rest
    generalize join.focus tableAlias = place, join.masked.focus tableAlias = place' at first
    generalize Join.focusIn tableAlias rest = places,
      Join.focusIn tableAlias (joinsMasked rest) = places' at later
    cases first with
    | some h => exact .some ⟨h.1, fun joins => by simp [h.2]⟩
    | none =>
      cases later with
      | none => exact .none
      | some h => exact .some ⟨h.1, fun joins => by simp [h.2]⟩

end

namespace Table

theorem focus_masked (tableAlias : String) (table : Table) :
    Option.Rel (FocusMasked masked) (table.focus tableAlias) (table.masked.focus tableAlias) := by
  have hs : table.masked.source = table.source.masked := rfl
  have hj : table.masked.joins = joinsMasked table.joins := rfl
  simp only [focus, hs, hj, Source.tableAlias?_masked]
  split
  · exact .some ⟨rfl, fun joins => rfl⟩
  · have below := Join.focusIn_masked tableAlias table.joins
    generalize Join.focusIn tableAlias table.joins = place,
      Join.focusIn tableAlias (joinsMasked table.joins) = place' at below
    cases below with
    | none => exact .none
    | some h => exact .some ⟨h.1, fun joins => by simp [h.2, masked]⟩

theorem focusIn_masked (tableAlias : String) (tables : List Table) :
    Option.Rel (FocusMasked tablesMasked) (focusIn tableAlias tables)
      (focusIn tableAlias (tablesMasked tables)) := by
  induction tables with
  | nil => exact .none
  | cons table rest later =>
    simp only [tablesMasked_cons, focusIn]
    have first := focus_masked tableAlias table
    generalize table.focus tableAlias = place, table.masked.focus tableAlias = place' at first
    generalize focusIn tableAlias rest = places, focusIn tableAlias (tablesMasked rest) = places' at later
    cases first with
    | some h => exact .some ⟨h.1, fun joins => by simp [h.2]⟩
    | none =>
      cases later with
      | none => exact .none
      | some h => exact .some ⟨h.1, fun joins => by simp [h.2]⟩

end Table

end Sql

namespace JoinTarget

def masked (t : JoinTarget) : JoinTarget := ⟨t.source.masked, t.leftKey.masked, t.rightKey.masked⟩

theorem masked_link (t : JoinTarget) : t.masked.link = t.link.masked := by
  simp [link, masked, Sql.Link.masked]

end JoinTarget

namespace Sql

def Joining.Masks {α : Type} (mask : α → α) (x y : Joining α) : Prop :=
  Agree (fun t t' => t' = tablesMasked t) (fun a b => b = mask a) x y

theorem Joining.Masks.run {α : Type} (mask : α → α) {x y : Joining α} (h : Masks mask x y)
    (tables : List Table) :
    Supply.Agree (fun a b => b.1 = mask a.1 ∧ b.2 = tablesMasked a.2) (x.run tables)
      (y.run (tablesMasked tables)) := h tables _ rfl

theorem Source.masks_ofSchema (schema : Schema) (itemType : String) :
    Supply.Masks masked ((Mapping.ofSchema schema).source itemType)
      ((Mapping.ofSchema schema).source itemType) := by
  refine .refl fun source f f' h => ?_
  obtain ⟨mapping, -, rfl, -⟩ := Mapping.source_eq_ok h
  rfl

theorem Link.resolve_masked (schema : Schema) (link : Link) :
    Supply.Masks JoinTarget.masked (link.resolve (Mapping.ofSchema schema))
      (link.masked.resolve (Mapping.ofSchema schema)) := by
  cases link with
  | resolved source leftKey rightKey => exact .pure rfl
  | unresolved origin member =>
    refine .refl fun target f f' h => ?_
    obtain ⟨_, _, left, right, -, -, rfl, -⟩ := Mapping.join_eq_ok h
    rfl

theorem Entity.navigate_masks (schema : Schema) (e : Entity) (member : String) :
    Joining.Masks Expr.masked (e.navigate (Mapping.ofSchema schema) member)
      (e.navigate (Mapping.ofSchema schema) member) := by
  rintro tables _ rfl
  rw [navigate_apply, navigate_apply]
  have found := Table.focusIn_masked e.tableAlias tables
  generalize Table.focusIn e.tableAlias tables = place,
    Table.focusIn e.tableAlias (tablesMasked tables) = place' at found
  cases found with
  | none => exact .throw _ _
  | @some place place' h =>
    obtain ⟨joins, rebuild⟩ := place
    obtain ⟨_, rebuild'⟩ := place'
    obtain ⟨rfl, hr⟩ := h
    dsimp only at hr ⊢
    rw [Join.getOrAdd_masked]
    refine .bind (Link.resolve_masked schema _) ?_
    rintro target _ rfl
    refine .bind (R := fun a b => b = a.masked) (.lift ?_) ?_
    · rw [JoinTarget.masked, Source.row_masked]
      exact .map _ _
    · rintro row _ rfl
      refine .pure ⟨rfl, ?_⟩
      rw [← hr, ← Join.put_masked, JoinTarget.masked_link]
      rfl

mutual

theorem Join.resolve_masked (schema : Schema) (join : Join) :
    Supply.Masks Join.masked (join.resolve (Mapping.ofSchema schema))
      (join.masked.resolve (Mapping.ofSchema schema)) := by
  obtain ⟨member, kind, link, joins⟩ := join
  simp only [Join.masked_mk, Join.resolve]
  refine .bind (Link.resolve_masked schema link) ?_
  rintro target _ rfl
  refine .bind (resolveJoins_masked schema joins) ?_
  rintro joins _ rfl
  exact .pure (by simp [JoinTarget.masked_link])

theorem resolveJoins_masked (schema : Schema) (joins : List Join) :
    Supply.Masks joinsMasked (resolveJoins (Mapping.ofSchema schema) joins)
      (resolveJoins (Mapping.ofSchema schema) (joinsMasked joins)) := by
  cases joins with
  | nil => exact .pure rfl
  | cons join rest =>
    simp only [joinsMasked_cons, resolveJoins]
    refine .bind (Join.resolve_masked schema join) ?_
    rintro join _ rfl
    refine .bind (resolveJoins_masked schema rest) ?_
    rintro rest _ rfl
    exact .pure (joinsMasked_cons join rest).symm

end

theorem resolveTableJoins_masked (schema : Schema) (tables : List Table) :
    Supply.Masks tablesMasked (resolveTableJoins (Mapping.ofSchema schema) tables)
      (resolveTableJoins (Mapping.ofSchema schema) (tablesMasked tables)) := by
  induction tables with
  | nil => exact .pure rfl
  | cons table rest ih =>
    simp only [tablesMasked_cons, resolveTableJoins]
    refine .bind (resolveJoins_masked schema table.joins) ?_
    rintro joins _ rfl
    refine .bind ih ?_
    rintro rest _ rfl
    exact .pure rfl

def rowsMasked (rows : Rows) : Rows := rows.map fun (key, row) => (key, row.masked)

theorem lookup_rowsMasked (key : Nat) (rows : Rows) :
    (rowsMasked rows).lookup key = (rows.lookup key).map Expr.masked := by
  induction rows with
  | nil => rfl
  | cons row rest ih =>
    obtain ⟨k, row⟩ := row
    rw [rowsMasked, List.map_cons, List.lookup_cons, List.lookup_cons]
    split
    · rfl
    · exact ih

/-- Further passes that do not look at the values of constants either. -/
structure Reentry.Masks (again : Reentry) : Prop where
  expression (rows : Rows) (position : Position) (e : Expr) :
    Joining.Masks Expr.masked (again.expression rows position e)
      (again.expression (rowsMasked rows) position e.masked)
  statement (rows : Rows) (s : Statement) :
    Supply.Masks Statement.masked (again.statement rows s)
      (again.statement (rowsMasked rows) s.masked)

theorem Resolver.fit_masked {r : Resolver} {position : Position} {x y : Joining Expr}
    (h : Joining.Masks Expr.masked x y) :
    Joining.Masks Expr.masked (r.fit position x) (r.fit position y) := by
  refine .bind h ?_
  rintro e _ rfl
  rw [Expr.adapted_masked]
  exact .lift (.map _ _)

open Resolver (fit_masked)

mutual

theorem Expr.resolve_masked (schema : Schema) (native : Bool) {again : Reentry}
    (h : again.Masks) (rows : Rows) (position : Position) (e : Expr) :
    Joining.Masks Expr.masked
      (e.resolve ⟨Mapping.ofSchema schema, native⟩ again rows position)
      (e.masked.resolve ⟨Mapping.ofSchema schema, native⟩ again (rowsMasked rows) position) := by
  cases e with
  | column c => exact .pure rfl
  | literal l => exact .pure rfl
  | customText text type => exact .pure rfl
  | entity e => exact .pure rfl
  | entityReference tableAlias name e => exact .pure rfl
  | entityConstant type value primaryKey => exact .pure rfl
  | constant value type =>
    simp only [Expr.masked, Expr.resolve, Schema.constant_masked]
    exact .lift (.map _ _)
  | tableReference key type =>
    simp only [Expr.masked, Expr.resolve, lookup_rowsMasked]
    cases rows.lookup key with
    | none => exact .throw _ _
    | some row => exact .pure rfl
  | member source name type =>
    simp only [Expr.masked, Expr.resolve]
    refine .bind (fit_masked (source.resolve_masked schema native h rows .value)) ?_
    rintro source _ rfl
    refine .bind (R := fun a b => b = a.masked) (.lift ?_) ?_
    · rw [Expr.memberOf_masked]
      exact .map _ _
    · rintro found _ rfl
      exact h.expression rows position found
  | navigation e member type => exact e.navigate_masks schema member
  | call c => exact .throw _ _
  | binary op left right type =>
    simp only [Expr.masked, Expr.resolve]
    refine .bind (fit_masked (left.resolve_masked schema native h rows .value)) ?_
    rintro left _ rfl
    refine .bind (fit_masked (right.resolve_masked schema native h rows .value)) ?_
    rintro right _ rfl
    refine .bind (R := fun a b => b = Prod.map Expr.masked Expr.masked a) (.lift ?_) ?_
    · rw [identities_masked]
      exact .map _ _
    · rintro ⟨left, right⟩ _ rfl
      refine .bind (fit_masked (.pure rfl)) ?_
      rintro left _ rfl
      refine .bind (fit_masked (.pure rfl)) ?_
      rintro right _ rfl
      exact .pure rfl
  | like expression pattern =>
    simp only [Expr.masked, Expr.resolve]
    refine .bind (fit_masked (expression.resolve_masked schema native h rows .singleValue)) ?_
    rintro expression _ rfl
    refine .bind (fit_masked (pattern.resolve_masked schema native h rows .singleValue)) ?_
    rintro pattern _ rfl
    exact .pure rfl
  | likeEscape value =>
    simp only [Expr.masked, Expr.resolve]
    refine .bind (fit_masked (value.resolve_masked schema native h rows .singleValue)) ?_
    rintro value _ rfl
    exact .pure rfl
  | logical op left right =>
    simp only [Expr.masked, Expr.resolve]
    refine .bind (fit_masked (left.resolve_masked schema native h rows .predicate)) ?_
    rintro left _ rfl
    refine .bind (fit_masked (right.resolve_masked schema native h rows .predicate)) ?_
    rintro right _ rfl
    exact .pure rfl
  | not operand =>
    simp only [Expr.masked, Expr.resolve]
    refine .bind (fit_masked (operand.resolve_masked schema native h rows .predicate)) ?_
    rintro operand _ rfl
    exact .pure rfl
  | case branches otherwise type =>
    simp only [Expr.masked, Expr.resolve]
    refine .bind (resolveBranches_masked schema native h rows branches) ?_
    rintro branches _ rfl
    refine .bind (resolveOption_masked schema native h rows .singleValue otherwise) ?_
    rintro otherwise _ rfl
    exact .pure rfl
  | function name args type isPredicate =>
    simp only [Expr.masked, Expr.resolve]
    refine .bind (resolveArgs_masked schema native h rows args) ?_
    rintro args _ rfl
    exact .pure rfl
  | convert target expression type =>
    simp only [Expr.masked, Expr.resolve]
    refine .bind (fit_masked (expression.resolve_masked schema native h rows .singleValue)) ?_
    rintro expression _ rfl
    exact .pure rfl
  | aggregation function expression type =>
    simp only [Expr.masked, Expr.resolve]
    refine .bind (fit_masked (expression.resolve_masked schema native h rows _)) ?_
    rintro expression _ rfl
    exact .pure rfl
  | rowNumber orderings =>
    simp only [Expr.masked, Expr.resolve]
    refine .bind (resolveOrderings_masked schema native h rows orderings) ?_
    rintro orderings _ rfl
    exact .pure rfl
  | named n =>
    obtain ⟨name, expression⟩ := n
    simp only [Expr.masked, Expr.resolve]
    refine .bind (fit_masked (expression.resolve_masked schema native h rows position)) ?_
    rintro expression _ rfl
    exact .pure rfl
  | compound members =>
    simp only [Expr.masked, Expr.resolve]
    refine .bind (resolveMembers_masked schema native h rows members) ?_
    rintro members _ rfl
    exact .pure rfl
  | subStatement statement =>
    simp only [Expr.masked, Expr.resolve]
    refine .bind (.liftSupply (statement.resolveIn_masked schema native h rows)) ?_
    rintro statement _ rfl
    exact .pure rfl

theorem resolveOption_masked (schema : Schema) (native : Bool) {again : Reentry}
    (h : again.Masks) (rows : Rows) (position : Position) (e : Option Expr) :
    Joining.Masks optionMasked
      (resolveOption ⟨Mapping.ofSchema schema, native⟩ again rows position e)
      (resolveOption ⟨Mapping.ofSchema schema, native⟩ again (rowsMasked rows) position
        (optionMasked e)) := by
  cases e with
  | none => exact .pure rfl
  | some e =>
    simp only [optionMasked, resolveOption]
    refine .bind (fit_masked (e.resolve_masked schema native h rows position)) ?_
    rintro e _ rfl
    exact .pure rfl

theorem resolveArgs_masked (schema : Schema) (native : Bool) {again : Reentry}
    (h : again.Masks) (rows : Rows) (args : List Expr) :
    Joining.Masks argsMasked
      (resolveArgs ⟨Mapping.ofSchema schema, native⟩ again rows args)
      (resolveArgs ⟨Mapping.ofSchema schema, native⟩ again (rowsMasked rows) (argsMasked args)) := by
  cases args with
  | nil => exact .pure rfl
  | cons e rest =>
    simp only [argsMasked, resolveArgs]
    refine .bind (fit_masked (e.resolve_masked schema native h rows .singleValue)) ?_
    rintro e _ rfl
    refine .bind (resolveArgs_masked schema native h rows rest) ?_
    rintro rest _ rfl
    exact .pure rfl

theorem resolveBranches_masked (schema : Schema) (native : Bool) {again : Reentry}
    (h : again.Masks) (rows : Rows) (branches : List (Expr × Expr)) :
    Joining.Masks branchesMasked
      (resolveBranches ⟨Mapping.ofSchema schema, native⟩ again rows branches)
      (resolveBranches ⟨Mapping.ofSchema schema, native⟩ again (rowsMasked rows)
        (branchesMasked branches)) := by
  cases branches with
  | nil => exact .pure rfl
  | cons branch rest =>
    obtain ⟨test, value⟩ := branch
    simp only [branchesMasked, resolveBranches]
    refine .bind (fit_masked (test.resolve_masked schema native h rows .predicate)) ?_
    rintro test _ rfl
    refine .bind (fit_masked (value.resolve_masked schema native h rows .singleValue)) ?_
    rintro value _ rfl
    refine .bind (resolveBranches_masked schema native h rows rest) ?_
    rintro rest _ rfl
    exact .pure rfl

theorem resolveOrderings_masked (schema : Schema) (native : Bool) {again : Reentry}
    (h : again.Masks) (rows : Rows) (orderings : List Ordering) :
    Joining.Masks orderingsMasked
      (resolveOrderings ⟨Mapping.ofSchema schema, native⟩ again rows orderings)
      (resolveOrderings ⟨Mapping.ofSchema schema, native⟩ again (rowsMasked rows)
        (orderingsMasked orderings)) := by
  cases orderings with
  | nil => exact .pure rfl
  | cons ordering rest =>
    obtain ⟨e, direction⟩ := ordering
    simp only [orderingsMasked, resolveOrderings]
    refine .bind (fit_masked (e.resolve_masked schema native h rows .singleValue)) ?_
    rintro e _ rfl
    refine .bind (resolveOrderings_masked schema native h rows rest) ?_
    rintro rest _ rfl
    exact .pure rfl

theorem resolveMembers_masked (schema : Schema) (native : Bool) {again : Reentry}
    (h : again.Masks) (rows : Rows) (members : List Named) :
    Joining.Masks membersMasked
      (resolveMembers ⟨Mapping.ofSchema schema, native⟩ again rows members)
      (resolveMembers ⟨Mapping.ofSchema schema, native⟩ again (rowsMasked rows)
        (membersMasked members)) := by
  cases members with
  | nil => exact .pure rfl
  | cons member rest =>
    obtain ⟨name, e⟩ := member
    simp only [membersMasked, resolveMembers]
    refine .bind (fit_masked (e.resolve_masked schema native h rows .value)) ?_
    rintro e _ rfl
    refine .bind (resolveMembers_masked schema native h rows rest) ?_
    rintro rest _ rfl
    exact .pure rfl

theorem Source.resolve_masked (schema : Schema) (native : Bool) {again : Reentry}
    (h : again.Masks) (rows : Rows) (source : Source) :
    Supply.Masks Source.masked
      (source.resolve ⟨Mapping.ofSchema schema, native⟩ again rows)
      (source.masked.resolve ⟨Mapping.ofSchema schema, native⟩ again (rowsMasked rows)) := by
  cases source with
  | table itemType tableName tableAlias => exact .pure rfl
  | unresolved itemType =>
    simp only [Source.masked, Source.resolve]
    refine .bind (Source.masks_ofSchema schema itemType) ?_
    rintro source _ rfl
    cases source with
    | unresolved itemType => exact .pure rfl
    | table itemType tableName tableAlias => exact .pure rfl
    | statement tableAlias statement =>
      refine .bind (h.statement rows statement) ?_
      rintro statement _ rfl
      exact .pure rfl
  | statement tableAlias statement =>
    simp only [Source.masked, Source.resolve]
    refine .bind (statement.resolveIn_masked schema native h rows) ?_
    rintro statement _ rfl
    exact .pure rfl

theorem resolveTables_masked (schema : Schema) (native : Bool) {again : Reentry}
    (h : again.Masks) (rows : Rows) (tables : List Table) :
    Supply.Masks (Prod.map tablesMasked rowsMasked)
      (resolveTables ⟨Mapping.ofSchema schema, native⟩ again rows tables)
      (resolveTables ⟨Mapping.ofSchema schema, native⟩ again (rowsMasked rows)
        (tablesMasked tables)) := by
  cases tables with
  | nil => exact .pure rfl
  | cons table rest =>
    obtain ⟨key, source, kind, joins⟩ := table
    simp only [tablesMasked, resolveTables]
    refine .bind (source.resolve_masked schema native h rows) ?_
    rintro source _ rfl
    refine .bind (R := fun a b => b = a.masked) (.lift ?_) ?_
    · rw [Source.row_masked]
      exact .map _ _
    · rintro row _ rfl
      refine .bind (resolveTables_masked schema native h ((key, row) :: rows) rest) ?_
      rintro ⟨rest, rows⟩ _ rfl
      exact .pure rfl

/-- A statement is resolved without a look at the values in it. -/
theorem Statement.resolveIn_masked (schema : Schema) (native : Bool) {again : Reentry}
    (h : again.Masks) (rows : Rows) (s : Statement) :
    Supply.Masks Statement.masked
      (s.resolveIn ⟨Mapping.ofSchema schema, native⟩ again rows)
      (s.masked.resolveIn ⟨Mapping.ofSchema schema, native⟩ again (rowsMasked rows)) := by
  obtain ⟨projection, tables, condition, grouping, orderings, top, isDistinct, rowNumber, rowOffset,
    shape⟩ := s
  simp only [Statement.masked, Statement.resolveIn, Expr.type_masked]
  refine .bind (resolveTables_masked schema native h rows tables) ?_
  rintro ⟨tables, rows⟩ _ rfl
  refine .bind (resolveTableJoins_masked schema tables) ?_
  rintro tables _ rfl
  refine .bind (Joining.Masks.run Statement.masked ?_ tables) ?_
  · refine .bind (fit_masked (projection.resolve_masked schema native h rows .value)) ?_
    rintro resolved _ rfl
    refine .bind (resolveOption_masked schema native h rows .predicate condition) ?_
    rintro condition _ rfl
    refine .bind (resolveOption_masked schema native h rows .value grouping) ?_
    rintro grouping _ rfl
    refine .bind (resolveOrderings_masked schema native h rows orderings) ?_
    rintro orderings _ rfl
    refine .bind (resolveOption_masked schema native h rows .singleValue top) ?_
    rintro top _ rfl
    refine .bind (resolveOption_masked schema native h rows .singleValue rowNumber) ?_
    rintro rowNumber _ rfl
    refine .bind (resolveOption_masked schema native h rows .singleValue rowOffset) ?_
    rintro rowOffset _ rfl
    rintro tables _ rfl
    exact .pure ⟨by simp [Statement.masked, Expr.type_masked], rfl⟩
  · rintro ⟨s, tables⟩ ⟨_, _⟩ ⟨rfl, rfl⟩
    rw [Statement.checked_masked]
    exact .lift (.map _ _)

end

/-- The passes inside each other do not look at values, by induction on how many there may be. -/
theorem Reentry.upTo_masks (schema : Schema) (native : Bool) (depth : Nat) :
    (upTo ⟨Mapping.ofSchema schema, native⟩ depth).Masks := by
  induction depth with
  | zero => exact ⟨fun _ _ _ => .throw _ _, fun _ _ => .throw _ _⟩
  | succ depth ih =>
    exact ⟨fun rows position e => e.resolve_masked schema native ih rows position,
      fun rows s => s.resolveIn_masked schema native ih rows⟩

mutual

theorem Expr.memberCount_masked (e : Expr) : e.masked.memberCount = e.memberCount := by
  cases e with
  | named n =>
    obtain ⟨name, e⟩ := n
    simp [Expr.masked, Expr.memberCount, e.memberCount_masked]
  | entityConstant _ _ e | likeEscape e | not e | convert _ e _ | aggregation _ e _ | member e _ _ =>
    simp [Expr.masked, Expr.memberCount, e.memberCount_masked]
  | binary _ left right _ | logical _ left right | like left right =>
    simp [Expr.masked, Expr.memberCount, left.memberCount_masked, right.memberCount_masked]
  | case branches otherwise _ =>
    simp [Expr.masked, Expr.memberCount, branchesMemberCount_masked branches,
      optionMemberCount_masked otherwise]
  | function _ args _ _ => simp [Expr.masked, Expr.memberCount, argsMemberCount_masked args]
  | rowNumber orderings =>
    simp [Expr.masked, Expr.memberCount, orderingsMemberCount_masked orderings]
  | compound members => simp [Expr.masked, Expr.memberCount, membersMemberCount_masked members]
  | subStatement statement => simp [Expr.masked, Expr.memberCount, statement.memberCount_masked]
  | _ => simp [Expr.masked, Expr.memberCount]

theorem optionMemberCount_masked (e : Option Expr) :
    optionMemberCount (optionMasked e) = optionMemberCount e := by
  cases e with
  | none => rfl
  | some e => simp [optionMasked, optionMemberCount, e.memberCount_masked]

theorem argsMemberCount_masked (args : List Expr) :
    argsMemberCount (argsMasked args) = argsMemberCount args := by
  cases args with
  | nil => rfl
  | cons e rest =>
    simp [argsMasked, argsMemberCount, e.memberCount_masked, argsMemberCount_masked rest]

theorem branchesMemberCount_masked (branches : List (Expr × Expr)) :
    branchesMemberCount (branchesMasked branches) = branchesMemberCount branches := by
  cases branches with
  | nil => rfl
  | cons branch rest =>
    obtain ⟨test, value⟩ := branch
    simp [branchesMasked, branchesMemberCount, test.memberCount_masked, value.memberCount_masked,
      branchesMemberCount_masked rest]

theorem orderingsMemberCount_masked (orderings : List Ordering) :
    orderingsMemberCount (orderingsMasked orderings) = orderingsMemberCount orderings := by
  cases orderings with
  | nil => rfl
  | cons ordering rest =>
    obtain ⟨e, direction⟩ := ordering
    simp [orderingsMasked, orderingsMemberCount, e.memberCount_masked,
      orderingsMemberCount_masked rest]

theorem membersMemberCount_masked (members : List Named) :
    membersMemberCount (membersMasked members) = membersMemberCount members := by
  cases members with
  | nil => rfl
  | cons member rest =>
    obtain ⟨name, e⟩ := member
    simp [membersMasked, membersMemberCount, e.memberCount_masked, membersMemberCount_masked rest]

theorem Source.memberCount_masked (source : Source) :
    source.masked.memberCount = source.memberCount := by
  cases source with
  | statement tableAlias statement =>
    simp [Source.masked, Source.memberCount, statement.memberCount_masked]
  | _ => simp [Source.masked, Source.memberCount]

theorem tablesMemberCount_masked (tables : List Table) :
    tablesMemberCount (tablesMasked tables) = tablesMemberCount tables := by
  cases tables with
  | nil => rfl
  | cons table rest =>
    obtain ⟨key, source, kind, joins⟩ := table
    simp [tablesMasked, tablesMemberCount, source.memberCount_masked, tablesMemberCount_masked rest]

theorem Statement.memberCount_masked (s : Statement) : s.masked.memberCount = s.memberCount := by
  obtain ⟨projection, tables, condition, grouping, orderings, top, isDistinct, rowNumber, rowOffset,
    shape⟩ := s
  simp [Statement.masked, Statement.memberCount, projection.memberCount_masked,
    tablesMemberCount_masked tables, optionMemberCount_masked condition,
    optionMemberCount_masked grouping, orderingsMemberCount_masked orderings,
    optionMemberCount_masked top, optionMemberCount_masked rowNumber,
    optionMemberCount_masked rowOffset]

end

/-- Statements that are equal up to the values of their constants are resolved to such
statements, or neither is. -/
theorem Statement.resolve_agree (schema : Schema) (native : Bool) {s s' : Statement}
    (h : s.masked = s'.masked) :
    Supply.Agree (fun t t' => t.masked = t'.masked) (s.resolve (Mapping.ofSchema schema) native)
      (s'.resolve (Mapping.ofSchema schema) native) := by
  refine Supply.Masks.agree (fun s => ?_) h
  unfold resolve
  rw [memberCount_masked]
  exact s.resolveIn_masked schema native (Reentry.upTo_masks schema native _) []

end Sql

end Comprehension
