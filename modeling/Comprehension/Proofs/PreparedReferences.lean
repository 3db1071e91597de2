import Comprehension.Proofs.OrderKeeping
import Comprehension.Proofs.TableReferences

/-!
Prepared statements refer to their own tables. What a name stands for is put into clauses, lets and
queries further inside, where its table is still visible; result operators put the tables into
sources, where it is not. So a statement stays closed as long as no number of rows to take or to
skip depends on a row of the query itself.
-/
namespace Comprehension

namespace Sql

variable {visible : Nat → Prop}

theorem Expr.closedIn_withColumnName {e : Expr} (h : (Node.expression e).ClosedIn visible) :
    (Node.expression e.withColumnName).ClosedIn visible := by
  cases e with
  | named | compound | tableReference | column | entity | entityReference => exact h
  | _ => exact closedIn_named h

theorem Expr.closedIn_conjoined {existing : Option Expr} {condition : Expr}
    (he : ∀ e, existing = some e → (Node.expression e).ClosedIn visible)
    (hc : (Node.expression condition).ClosedIn visible) :
    (Node.expression (conjoined existing condition)).ClosedIn visible := by
  cases existing with
  | none => exact hc
  | some first => exact closedIn_logical (he first rfl) hc

namespace Statement

variable {s t : Statement} {e : Expr} {f f' : Fresh}

theorem closedIn_asSource (h : (Node.statement s).ClosedIn visible) :
    (Node.statement s.asSource).ClosedIn visible := by
  obtain ⟨each, links, sources⟩ := closedIn_iff.mp h
  refine closedIn_iff.mpr ⟨{ each with projection := ?_, orderings := ?_ }, links, sources⟩
  · exact Expr.closedIn_withColumnName each.projection
  · intro o mem
    change o ∈ ite _ _ _ at mem
    split at mem
    · exact each.orderings o mem
    · cases mem

/-- A closed statement can be the only source of another one. -/
theorem sourcesClosedIn_single {key : Nat} {tableAlias : String}
    (h : (Node.statement s).ClosedIn visible) :
    SourcesClosedIn visible [.ofSource key (.statement tableAlias s) .inner] := by
  refine sourcesClosedIn_cons.mpr ⟨fun inner nested => ?_, sourcesClosedIn_nil⟩
  obtain rfl := Option.some.inj nested
  exact h

theorem closedIn_around {key : Nat} {tableAlias : String}
    (h : (Node.statement s).ClosedIn visible) :
    (Node.statement (around key tableAlias s)).ClosedIn visible := by
  refine closedIn_iff.mpr ⟨?_, linksClosedIn_of_nil rfl, sourcesClosedIn_single h⟩
  have own : withTables (around key tableAlias s).tables visible key := .inl List.mem_cons_self
  exact ⟨Expr.closedIn_tableReference own, nofun, nofun, nofun, nofun, nofun, nofun⟩

theorem Nests.closedIn {condition : Bool} (nests : Nests condition s t)
    (h : (Node.statement s).ClosedIn visible) : (Node.statement t).ClosedIn visible := by
  cases nests with
  | stays => exact h
  | around => exact closedIn_around (closedIn_asSource h)

theorem closedIn_numbered (h : (Node.statement s).ClosedIn visible) :
    (Node.statement s.numbered).ClosedIn visible := by
  obtain ⟨each, links, sources⟩ := closedIn_iff.mp h
  refine closedIn_iff.mpr ⟨{ each with projection := ?_, orderings := nofun }, links, sources⟩
  have numbers : ∀ o ∈ s.numbering,
      (Node.expression o.expression).ClosedIn (withTables s.tables visible) := by
    intro o mem
    unfold numbering at mem
    split at mem
    · obtain rfl := List.mem_singleton.mp mem
      exact Expr.closedIn_int 1
    · exact each.orderings o mem
  have number : (Node.expression (.rowNumber s.numbering)).ClosedIn (withTables s.tables visible) :=
    Expr.closedIn_of_operands rfl (by simpa [Expr.operands, Expr.slots] using numbers)
  exact Expr.closedIn_compound
    (List.forall_mem_cons.mpr ⟨each.projection, List.forall_mem_singleton.mpr number⟩)

theorem closedIn_page {key : Nat} {tableAlias : String} {rowType type : ValueType} {offset : Expr}
    (h : (Node.statement s).ClosedIn visible) (ho : (Node.expression offset).ClosedIn visible) :
    (Node.statement (page key tableAlias s rowType type offset
      (.binaryOf .greaterThan (numberOf key rowType) offset))).ClosedIn visible := by
  refine closedIn_iff.mpr ⟨?_, linksClosedIn_of_nil rfl, sourcesClosedIn_single h⟩
  have own {name : String} {type : ValueType} :
      (Node.expression (.member (.tableReference key rowType) name type)).ClosedIn
        (withTables [.ofSource key (.statement tableAlias s) .inner] visible) :=
    Expr.closedIn_member (Expr.closedIn_tableReference (.inl List.mem_cons_self))
  have skipped : (Node.expression offset).ClosedIn
      (withTables [.ofSource key (.statement tableAlias s) .inner] visible) :=
    ho.mono fun _ => withTables_of_visible
  refine ⟨own, fun e he => ?_, nofun, fun o mem => ?_, nofun, fun e he => ?_, fun e he => ?_⟩
  · obtain rfl := Option.some.inj he
    exact Expr.closedIn_binary own skipped
  · obtain rfl := List.mem_singleton.mp mem
    exact own
  · obtain rfl := Option.some.inj he
    exact own
  · obtain rfl := Option.some.inj he
    exact skipped

theorem closedIn_of_aggregate {function : Aggregate} {type? : Option ValueType}
    (h : (Node.statement s).ClosedIn visible) (run : s.aggregate function type? f = .ok (t, f')) :
    (Node.statement t).ClosedIn visible := by
  obtain ⟨u, type, nests, rfl⟩ := aggregate_cases run
  obtain ⟨each, links, sources⟩ := closedIn_iff.mp (nests.closedIn h)
  refine closedIn_iff.mpr ⟨{ each with projection := ?_, orderings := nofun }, links, sources⟩
  have below := each.projection
  exact Expr.closedIn_of_operands rfl (by simpa [Expr.operands, Expr.slots] using below)

theorem closedIn_of_take {count : Expr} (h : (Node.statement s).ClosedIn visible)
    (hc : (Node.expression count).ClosedIn visible) (run : s.take count f = .ok (t, f')) :
    (Node.statement t).ClosedIn visible := by
  have limit (tables : List Table) :
      (Node.expression count).ClosedIn (withTables tables visible) :=
    hc.mono fun _ => withTables_of_visible
  rcases take_cases run with ⟨rowNumber, offset, hr, ho, rfl⟩ | ⟨-, u, nests, rfl⟩
  · obtain ⟨each, links, sources⟩ := closedIn_iff.mp h
    refine closedIn_iff.mpr ⟨{ each with condition := fun e he => ?_ }, links, sources⟩
    obtain rfl := Option.some.inj he
    have last : (Node.expression (.add offset count)).ClosedIn (withTables s.tables visible) :=
      Expr.closedIn_binary (each.rowOffset offset ho) (limit s.tables)
    exact Expr.closedIn_conjoined each.condition
      (Expr.closedIn_binary (each.rowNumber rowNumber hr) last)
  · obtain ⟨each, links, sources⟩ := closedIn_iff.mp (nests.closedIn h)
    refine closedIn_iff.mpr ⟨{ each with top := fun e he => ?_ }, links, sources⟩
    obtain rfl := Option.some.inj he
    exact limit u.tables

theorem closedIn_of_skip {offset : Expr} (h : (Node.statement s).ClosedIn visible)
    (ho : (Node.expression offset).ClosedIn visible) (run : s.skip offset f = .ok (t, f')) :
    (Node.statement t).ClosedIn visible := by
  obtain ⟨u, key, tableAlias, nests, rfl⟩ := skip_cases run
  exact closedIn_page (closedIn_asSource (closedIn_numbered (nests.closedIn h))) ho

theorem closedIn_of_singleRow {rows : Int} {orDefault : Bool}
    (h : (Node.statement s).ClosedIn visible) (run : s.singleRow rows orDefault f = .ok (t, f')) :
    (Node.statement t).ClosedIn visible := by
  obtain ⟨u, nests, rfl⟩ := singleRow_cases run
  obtain ⟨each, links, sources⟩ := closedIn_iff.mp (nests.closedIn h)
  refine closedIn_iff.mpr ⟨{ each with top := fun e he => ?_ }, links, sources⟩
  obtain rfl := Option.some.inj he
  exact Expr.closedIn_int rows

theorem closedIn_of_distinct (h : (Node.statement s).ClosedIn visible)
    (run : s.distinct f = .ok (t, f')) : (Node.statement t).ClosedIn visible := by
  obtain ⟨u, nests, rfl⟩ := distinct_cases run
  obtain ⟨each, links, sources⟩ := closedIn_iff.mp (nests.closedIn h)
  exact closedIn_iff.mpr ⟨{ each with }, links, sources⟩

end Statement

end Sql

namespace Query

open Method (Registry)
open Sql (Node SourcesClosedIn withTables withTables_of_visible)

/-- The names that a clause adds to the scope. -/
def Clause.binds : Clause → List String
  | .source added => [added.itemName]
  | .bind name _ => [name]
  | .keyJoin itemName _ _ _ _ | .groupJoin itemName _ => [itemName]
  | .filter _ | .orderBy _ => []

/-- Names without those that something else stands for from here on. -/
def unbound (hidden bound : List String) : List String := hidden.filter (· ∉ bound)

mutual

/-- Whether none of the hidden names is mentioned, and no number of rows to take or to skip
mentions an item or a let of the query that it belongs to. -/
def Expr.avoids (hidden : List String) : Expr → Bool
  | .constant _ _ | .queryable _ => true
  | .item name _ => name ∉ hidden
  | .member source _ _ => source.avoids hidden
  | .binary _ left right _ => left.avoids hidden && right.avoids hidden
  | .not operand => operand.avoids hidden
  | .conditional test ifTrue ifFalse _ =>
    test.avoids hidden && ifTrue.avoids hidden && ifFalse.avoids hidden
  | .call object _ _ _ arguments _ => objectAvoids hidden object && argumentsAvoid hidden arguments
  | .record members => membersAvoid hidden members
  | .subQuery model => model.avoids hidden

def objectAvoids (hidden : List String) : Option Expr → Bool
  | none => true
  | some object => object.avoids hidden

def argumentsAvoid (hidden : List String) : List Expr → Bool
  | [] => true
  | argument :: rest => argument.avoids hidden && argumentsAvoid hidden rest

def membersAvoid (hidden : List String) : List (String × Expr) → Bool
  | [] => true
  | (_, member) :: rest => member.avoids hidden && membersAvoid hidden rest

def orderingsAvoid (hidden : List String) : List Ordering → Bool
  | [] => true
  | ⟨expression, _⟩ :: rest => expression.avoids hidden && orderingsAvoid hidden rest

def Source.avoids (hidden : List String) : Source → Bool
  | ⟨_, _, source⟩ => source.avoids hidden

def Clause.avoids (hidden : List String) : Clause → Bool
  | .source source => source.avoids hidden
  | .filter predicate => predicate.avoids hidden
  | .orderBy orderings => orderingsAvoid hidden orderings
  | .bind _ expression => expression.avoids hidden
  | .keyJoin itemName _ inner outerKey innerKey =>
    inner.avoids hidden && outerKey.avoids hidden && innerKey.avoids (unbound hidden [itemName])
  | .groupJoin _ inner => inner.avoids hidden

def clausesAvoid (hidden : List String) : List Clause → Bool
  | [] => true
  | clause :: rest => clause.avoids hidden && clausesAvoid (unbound hidden clause.binds) rest

def Yield.avoids (hidden : List String) : Yield → Bool
  | .select selector => selector.avoids hidden
  | .group key element => key.avoids hidden && element.avoids hidden

def operatorsAvoid (hidden : List String) : List Operator → Bool
  | [] => true
  | .take argument :: rest | .skip argument :: rest =>
    argument.avoids hidden && operatorsAvoid hidden rest
  | _ :: rest => operatorsAvoid hidden rest

def Model.avoids (hidden : List String) : Model → Bool
  | ⟨main, clauses, yield, operators⟩ =>
    let names := main.itemName :: clauses.flatMap Clause.binds
    main.avoids hidden && clausesAvoid (unbound hidden [main.itemName]) clauses &&
      yield.avoids (unbound hidden names) && operatorsAvoid (names ++ hidden) operators

end

/-- Whether all numbers of rows to take and to skip, in a query and in the queries inside it, are
told by the queries around the one that they belong to. -/
def Model.pagesOutside (m : Model) : Bool := m.avoids []

/-- What the names of a scope stand for is closed, but for the hidden ones. So is what methods make
of closed trees. -/
structure Scope.ClosedIn (registry : Registry) (hidden : List String) (visible : Nat → Prop)
    (scope : Scope) : Prop where
  invented : ∀ key, registry.Invents key → visible key
  names : ∀ name e, name ∉ hidden → scope.lookup name = some e →
    (Node.expression e).ClosedIn visible

section Scopes

variable {registry : Registry} {scope : Scope} {hidden : List String} {visible seen : Nat → Prop}

theorem Scope.ClosedIn.mono (h : scope.ClosedIn registry hidden visible)
    (more : ∀ key, visible key → seen key) : scope.ClosedIn registry hidden seen where
  invented key made := more key (h.invented key made)
  names name e unhidden found := (h.names name e unhidden found).mono more

theorem Scope.closedIn_nil : Scope.ClosedIn registry hidden registry.Invents [] :=
  ⟨fun _ => id, nofun⟩

/-- A name that gets a new meaning is not hidden any more. -/
theorem Scope.ClosedIn.cons (h : scope.ClosedIn registry hidden visible) {name : String}
    {e : Sql.Expr} (he : (Node.expression e).ClosedIn visible) :
    Scope.ClosedIn registry (unbound hidden [name]) visible ((name, e) :: scope) := by
  refine ⟨h.invented, fun other found unhidden lookup => ?_⟩
  by_cases same : other = name
  · subst same
    rw [List.lookup_cons_self] at lookup
    exact Option.some.inj lookup ▸ he
  · rw [List.lookup_cons, beq_false_of_ne same] at lookup
    refine h.names other found (fun mem => unhidden ?_) lookup
    simp [unbound, mem, same]

end Scopes

/-- What the clauses of a query have been prepared to so far is closed. -/
structure Body.ClosedIn (visible : Nat → Prop) (body : Body) : Prop where
  condition : ∀ e, body.condition = some e →
    (Node.expression e).ClosedIn (withTables body.tables visible)
  orderings : ∀ o ∈ body.orderings,
    (Node.expression o.expression).ClosedIn (withTables body.tables visible)
  unjoined : Sql.tableLinks body.tables = []
  sources : SourcesClosedIn visible body.tables

theorem Body.closedIn_statement {body : Body} {visible : Nat → Prop} (h : body.ClosedIn visible)
    {projection : Sql.Expr} {grouping : Option Sql.Expr}
    (hp : (Node.expression projection).ClosedIn (withTables body.tables visible))
    (hg : ∀ e, grouping = some e → e = projection) :
    (Node.statement (body.statement projection grouping)).ClosedIn visible := by
  refine Sql.Statement.closedIn_iff.mpr ⟨?_, Sql.linksClosedIn_of_nil h.unjoined, h.sources⟩
  exact ⟨hp, h.condition, fun e he => hg e he ▸ hp, h.orderings, nofun, nofun, nofun⟩

section Names

variable {registry : Registry} {scope scope' : Scope} {body body' : Body} {f f' : Fresh}

theorem Clause.lookup_of_prepare {clause : Clause} {name : String} (other : name ∉ clause.binds)
    (h : clause.prepare registry scope body f = .ok ((scope', body'), f')) :
    scope'.lookup name = scope.lookup name := by
  cases clause with
  | source source =>
    rw [Clause.prepare] at h
    obtain ⟨key, f₁, rows, -, -, rfl, rfl⟩ := Source.prepare_eq_ok h
    rw [List.lookup_cons, beq_false_of_ne (by simpa [binds] using other)]
  | filter predicate =>
    obtain ⟨condition, -, rfl, rfl⟩ := Clause.prepare_filter_eq_ok h
    rfl
  | orderBy orderings =>
    obtain ⟨orderings', -, rfl, rfl⟩ := Clause.prepare_orderBy_eq_ok h
    rfl
  | bind bound e =>
    obtain ⟨e', -, rfl, rfl⟩ := Clause.prepare_bind_eq_ok h
    rw [List.lookup_cons, beq_false_of_ne (by simpa [binds] using other)]
  | keyJoin | groupJoin => exact (Supply.throw_ne_ok.mp h).elim

/-- Clauses change the meaning of no other names than their own. -/
theorem lookup_of_prepareClauses {clauses : List Clause} {name : String}
    (other : name ∉ clauses.flatMap Clause.binds)
    (h : prepareClauses registry scope body clauses f = .ok ((scope', body'), f')) :
    scope'.lookup name = scope.lookup name := by
  induction clauses generalizing scope body f with
  | nil =>
    obtain ⟨same, rfl⟩ := Supply.pure_eq_ok.mp h
    obtain ⟨rfl, rfl⟩ := Prod.mk.inj same
    rfl
  | cons clause rest ih =>
    rw [prepareClauses] at h
    rw [List.flatMap_cons, List.mem_append, not_or] at other
    obtain ⟨⟨scope₁, body₁⟩, f₁, first, others⟩ := Supply.bind_eq_ok.mp h
    exact (ih other.2 others).trans (clause.lookup_of_prepare other.1 first)

end Names

theorem unbound_append (hidden bound others : List String) :
    unbound hidden (bound ++ others) = unbound (unbound hidden bound) others := by
  rw [unbound, unbound, unbound, List.filter_filter]
  refine List.filter_congr fun name _ => ?_
  simp [Bool.and_comm]

section Expressions

variable {registry : Registry} {visible : Nat → Prop} {left right source e : Sql.Expr}
  {type : ValueType}

theorem BinaryOp.closedIn_prepared (op : BinaryOp) (hl : (Node.expression left).ClosedIn visible)
    (hr : (Node.expression right).ClosedIn visible) :
    (Node.expression (op.prepared left right type)).ClosedIn visible := by
  cases op with
  | andAlso | orElse => exact Sql.Expr.closedIn_logical hl hr
  | coalesce =>
    exact Sql.Expr.closedIn_function
      (List.forall_mem_cons.mpr ⟨hl, List.forall_mem_singleton.mpr hr⟩)
  | add =>
    rw [prepared]
    split
    · exact Sql.Expr.closedIn_binary hl hr
    · exact Sql.Expr.closedIn_binary hl hr
  | _ => exact Sql.Expr.closedIn_binary hl hr

theorem closedIn_mappedMember (invented : ∀ key, registry.Invents key → visible key)
    (hs : (Node.expression source).ClosedIn visible) {name text : String}
    (h : mappedMember registry source name type text = .ok e) :
    (Node.expression e).ClosedIn visible := by
  unfold mappedMember at h
  split at h
  case h_4 =>
    refine Registry.closedIn_of_transform invented ?_ h
    simpa [Method.Transformer.operands] using hs
  all_goals
    obtain rfl := Except.ok.inj h
    exact Sql.Expr.closedIn_member hs

theorem closedIn_preparedMember (invented : ∀ key, registry.Invents key → visible key)
    (hs : (Node.expression source).ClosedIn visible) {name text : String}
    (h : preparedMember registry source name type text = .ok e) :
    (Node.expression e).ClosedIn visible := by
  unfold preparedMember at h
  split at h
  · split at h
    · obtain rfl := Except.ok.inj h
      exact hs
    · split at h
      · obtain rfl := Except.ok.inj h
        exact Sql.Expr.closedIn_binary hs (Sql.Expr.closedIn_constant _ _)
      · exact closedIn_mappedMember invented hs h
  · exact closedIn_mappedMember invented hs h

end Expressions

section Preparation

variable {registry : Registry}

mutual

theorem Expr.closedIn_of_prepare (e : Expr) {hidden : List String} {visible : Nat → Prop}
    {scope : Scope} (closed : scope.ClosedIn registry hidden visible)
    (avoids : e.avoids hidden = true) {f f' : Fresh} {e' : Sql.Expr}
    (h : e.prepare registry scope f = .ok (e', f')) :
    (Node.expression e').ClosedIn visible := by
  cases e with
  | constant value type =>
    obtain ⟨rfl, rfl⟩ := Supply.pure_eq_ok.mp h
    exact Sql.Expr.closedIn_constant value type
  | queryable itemType => exact (Supply.throw_ne_ok.mp h).elim
  | item name type =>
    obtain ⟨found, rfl⟩ := Expr.prepare_item_eq_ok h
    exact closed.names name e' (by simpa [Expr.avoids] using avoids) found
  | member source name type =>
    obtain ⟨source', prepared, member⟩ := Expr.prepare_member_eq_ok h
    have operand := source.closedIn_of_prepare closed avoids prepared
    exact closedIn_preparedMember closed.invented operand member
  | binary op left right type =>
    rw [Expr.avoids, Bool.and_eq_true] at avoids
    obtain ⟨left', f₁, right', hl, hr, rfl⟩ := Expr.prepare_binary_eq_ok h
    have first := left.closedIn_of_prepare closed avoids.1 hl
    have second := right.closedIn_of_prepare closed avoids.2 hr
    exact op.closedIn_prepared first second
  | not operand =>
    obtain ⟨operand', prepared, rfl⟩ := Expr.prepare_not_eq_ok h
    have negated := operand.closedIn_of_prepare closed avoids prepared
    exact Sql.Expr.closedIn_of_operands rfl
      (by simpa [Sql.Expr.operands, Sql.Expr.slots] using negated)
  | conditional test ifTrue ifFalse type =>
    rw [Expr.avoids, Bool.and_eq_true, Bool.and_eq_true] at avoids
    obtain ⟨test', f₁, ifTrue', f₂, ifFalse', ht, hi, he, rfl⟩ :=
      Expr.prepare_conditional_eq_ok h
    have first := test.closedIn_of_prepare closed avoids.1.1 ht
    have second := ifTrue.closedIn_of_prepare closed avoids.1.2 hi
    have third := ifFalse.closedIn_of_prepare closed avoids.2 he
    exact Sql.Expr.closedIn_case (List.forall_mem_singleton.mpr ⟨first, second⟩)
      fun _ same => Option.some.inj same ▸ third
  | call object declaringType method parameterTypes arguments type =>
    rw [Expr.avoids, Bool.and_eq_true] at avoids
    obtain ⟨object', f₁, arguments', ho, ha, transformed⟩ := Expr.prepare_call_eq_ok h
    have first := prepareObject_closedIn object closed avoids.1 ho
    have others := prepareArguments_closedIn arguments closed avoids.2 ha
    refine Registry.closedIn_of_transform closed.invented (List.forall_mem_append.mpr ⟨?_, others⟩)
      transformed
    exact fun e mem => first e (Option.mem_toList.mp mem)
  | record members =>
    obtain ⟨members', prepared, rfl⟩ := Expr.prepare_record_eq_ok h
    exact Sql.Expr.closedIn_compound (prepareMembers_closedIn members closed avoids prepared)
  | subQuery model =>
    obtain ⟨s, prepared, rfl⟩ := Expr.prepare_subQuery_eq_ok h
    exact Sql.Expr.closedIn_subStatement.mpr
      (model.closedIn_of_prepareIn closed avoids prepared)

theorem prepareObject_closedIn (object : Option Expr) {hidden : List String} {visible : Nat → Prop}
    {scope : Scope} (closed : scope.ClosedIn registry hidden visible)
    (avoids : objectAvoids hidden object = true) {f f' : Fresh} {object' : Option Sql.Expr}
    (h : prepareObject registry scope object f = .ok (object', f')) :
    ∀ e, object' = some e → (Node.expression e).ClosedIn visible := by
  cases object with
  | none =>
    obtain ⟨rfl, rfl⟩ := Supply.pure_eq_ok.mp h
    exact nofun
  | some object =>
    obtain ⟨prepared, ho, rfl⟩ := prepareObject_some_eq_ok h
    intro e same
    obtain rfl := Option.some.inj same
    exact object.closedIn_of_prepare closed avoids ho

theorem prepareArguments_closedIn (arguments : List Expr) {hidden : List String}
    {visible : Nat → Prop} {scope : Scope} (closed : scope.ClosedIn registry hidden visible)
    (avoids : argumentsAvoid hidden arguments = true) {f f' : Fresh} {arguments' : List Sql.Expr}
    (h : prepareArguments registry scope arguments f = .ok (arguments', f')) :
    ∀ e ∈ arguments', (Node.expression e).ClosedIn visible := by
  cases arguments with
  | nil =>
    obtain ⟨rfl, rfl⟩ := Supply.pure_eq_ok.mp h
    exact nofun
  | cons argument rest =>
    rw [argumentsAvoid, Bool.and_eq_true] at avoids
    obtain ⟨argument', f₁, rest', ha, hr, rfl⟩ := prepareArguments_cons_eq_ok h
    have first := argument.closedIn_of_prepare closed avoids.1 ha
    exact List.forall_mem_cons.mpr
      ⟨first, prepareArguments_closedIn rest closed avoids.2 hr⟩

theorem prepareMembers_closedIn (members : List (String × Expr)) {hidden : List String}
    {visible : Nat → Prop} {scope : Scope} (closed : scope.ClosedIn registry hidden visible)
    (avoids : membersAvoid hidden members = true) {f f' : Fresh} {members' : List Sql.Named}
    (h : prepareMembers registry scope members f = .ok (members', f')) :
    ∀ n ∈ members', (Node.expression n.expression).ClosedIn visible := by
  cases members with
  | nil =>
    obtain ⟨rfl, rfl⟩ := Supply.pure_eq_ok.mp h
    exact nofun
  | cons member rest =>
    obtain ⟨name, member⟩ := member
    rw [membersAvoid, Bool.and_eq_true] at avoids
    obtain ⟨member', f₁, rest', hm, hr, rfl⟩ := prepareMembers_cons_eq_ok h
    have first := member.closedIn_of_prepare closed avoids.1 hm
    exact List.forall_mem_cons.mpr
      ⟨first, prepareMembers_closedIn rest closed avoids.2 hr⟩

theorem prepareOrderings_closedIn (orderings : List Ordering) {hidden : List String}
    {visible : Nat → Prop} {scope : Scope} (closed : scope.ClosedIn registry hidden visible)
    (avoids : orderingsAvoid hidden orderings = true) {f f' : Fresh}
    {orderings' : List Sql.Ordering}
    (h : prepareOrderings registry scope orderings f = .ok (orderings', f')) :
    ∀ o ∈ orderings', (Node.expression o.expression).ClosedIn visible := by
  cases orderings with
  | nil =>
    obtain ⟨rfl, rfl⟩ := Supply.pure_eq_ok.mp h
    exact nofun
  | cons ordering rest =>
    obtain ⟨e, direction⟩ := ordering
    rw [orderingsAvoid, Bool.and_eq_true] at avoids
    obtain ⟨e', f₁, rest', he, hr, rfl⟩ := prepareOrderings_cons_eq_ok h
    have first := e.closedIn_of_prepare closed avoids.1 he
    exact List.forall_mem_cons.mpr
      ⟨first, prepareOrderings_closedIn rest closed avoids.2 hr⟩

theorem prepareRows_closedIn (e : Expr) {hidden : List String} {visible : Nat → Prop}
    {scope : Scope} (closed : scope.ClosedIn registry hidden visible)
    (avoids : e.avoids hidden = true) {f f' : Fresh} {itemName : String} {rows : Sql.Source}
    (h : prepareRows registry scope itemName e f = .ok (rows, f')) :
    ∀ s, rows.statement? = some s → (Node.statement s).ClosedIn visible := by
  cases e with
  | queryable itemType =>
    obtain ⟨rfl, rfl⟩ := Supply.pure_eq_ok.mp h
    exact nofun
  | subQuery model =>
    obtain ⟨s, f₁, tableAlias, prepared, -, rfl⟩ := prepareRows_subQuery_eq_ok h
    intro inner same
    obtain rfl := Option.some.inj same
    exact Sql.Statement.closedIn_asSource
      (model.closedIn_of_prepareIn closed avoids prepared)
  | _ => exact (Supply.throw_ne_ok.mp h).elim

/-- A source sees the tables before it, and what follows sees its table as well. -/
theorem Source.closedIn_of_prepare (source : Source) {hidden : List String} {visible : Nat → Prop}
    {scope scope' : Scope} {body body' : Body}
    (closed : scope.ClosedIn registry hidden (withTables body.tables visible))
    (arranged : body.ClosedIn visible) (avoids : source.avoids hidden = true) {f f' : Fresh}
    (h : source.prepare registry scope body f = .ok ((scope', body'), f')) :
    scope'.ClosedIn registry (unbound hidden [source.itemName]) (withTables body'.tables visible) ∧
      body'.ClosedIn visible := by
  obtain ⟨itemName, itemType, source⟩ := source
  obtain ⟨key, f₁, rows, -, prepared, rfl, rfl⟩ := Source.prepare_eq_ok h
  have nested := prepareRows_closedIn source closed avoids prepared
  have more (k : Nat) (h : withTables body.tables visible k) :
      withTables (body.tables ++ [Sql.Table.ofSource key rows .inner]) visible k := by
    rw [Sql.withTables_append]
    exact withTables_of_visible h
  have own : withTables (body.tables ++ [Sql.Table.ofSource key rows .inner]) visible key :=
    .inl (by simp [Sql.Table.ofSource])
  refine ⟨(closed.mono more).cons (Sql.Expr.closedIn_tableReference own), ?_⟩
  refine ⟨fun e he => (arranged.condition e he).mono more,
    fun o mem => (arranged.orderings o mem).mono more, ?_, ?_⟩
  · have unjoined := arranged.unjoined
    simp only [Sql.tableLinks] at unjoined ⊢
    simp [unjoined, Sql.Table.ofSource, Sql.joinLinks]
  · refine Sql.sourcesClosedIn_append.mpr ⟨arranged.sources, ?_⟩
    exact Sql.sourcesClosedIn_cons.mpr ⟨nested, Sql.sourcesClosedIn_nil⟩

theorem Clause.closedIn_of_prepare (clause : Clause) {hidden : List String} {visible : Nat → Prop}
    {scope scope' : Scope} {body body' : Body}
    (closed : scope.ClosedIn registry hidden (withTables body.tables visible))
    (arranged : body.ClosedIn visible) (avoids : clause.avoids hidden = true) {f f' : Fresh}
    (h : clause.prepare registry scope body f = .ok ((scope', body'), f')) :
    scope'.ClosedIn registry (unbound hidden clause.binds) (withTables body'.tables visible) ∧
      body'.ClosedIn visible := by
  have unchanged : unbound hidden [] = hidden := by simp [unbound]
  cases clause with
  | source source => exact source.closedIn_of_prepare closed arranged avoids h
  | filter predicate =>
    obtain ⟨condition, prepared, rfl, rfl⟩ := Clause.prepare_filter_eq_ok h
    have added := predicate.closedIn_of_prepare closed avoids prepared
    refine ⟨by rwa [Clause.binds, unchanged], { arranged with condition := fun e he => ?_ }⟩
    obtain rfl := Option.some.inj he
    exact Sql.Expr.closedIn_conjoined arranged.condition added
  | orderBy orderings =>
    obtain ⟨orderings', prepared, rfl, rfl⟩ := Clause.prepare_orderBy_eq_ok h
    have added := prepareOrderings_closedIn orderings closed avoids prepared
    refine ⟨by rwa [Clause.binds, unchanged], { arranged with orderings := ?_ }⟩
    exact List.forall_mem_append.mpr ⟨added, arranged.orderings⟩
  | bind name e =>
    obtain ⟨e', prepared, rfl, rfl⟩ := Clause.prepare_bind_eq_ok h
    exact ⟨closed.cons (e.closedIn_of_prepare closed avoids prepared), arranged⟩
  | keyJoin => exact (Supply.throw_ne_ok.mp h).elim
  | groupJoin => exact (Supply.throw_ne_ok.mp h).elim

theorem prepareClauses_closedIn (clauses : List Clause) {hidden : List String}
    {visible : Nat → Prop} {scope scope' : Scope} {body body' : Body}
    (closed : scope.ClosedIn registry hidden (withTables body.tables visible))
    (arranged : body.ClosedIn visible) (avoids : clausesAvoid hidden clauses = true) {f f' : Fresh}
    (h : prepareClauses registry scope body clauses f = .ok ((scope', body'), f')) :
    scope'.ClosedIn registry (unbound hidden (clauses.flatMap Clause.binds))
      (withTables body'.tables visible) ∧ body'.ClosedIn visible := by
  cases clauses with
  | nil =>
    obtain ⟨same, rfl⟩ := Supply.pure_eq_ok.mp h
    obtain ⟨rfl, rfl⟩ := Prod.mk.inj same
    refine ⟨?_, arranged⟩
    rwa [List.flatMap_nil, show unbound hidden [] = hidden by simp [unbound]]
  | cons clause rest =>
    rw [clausesAvoid, Bool.and_eq_true] at avoids
    obtain ⟨⟨scope₁, body₁⟩, f₁, first, others⟩ := Supply.bind_eq_ok.mp h
    obtain ⟨closed₁, arranged₁⟩ := clause.closedIn_of_prepare closed arranged avoids.1 first
    rw [List.flatMap_cons, unbound_append]
    exact prepareClauses_closedIn rest closed₁ arranged₁ avoids.2 others

theorem Yield.closedIn_of_prepare (y : Yield) {hidden : List String} {visible : Nat → Prop}
    {scope : Scope} {body : Body}
    (closed : scope.ClosedIn registry hidden (withTables body.tables visible))
    (arranged : body.ClosedIn visible) (avoids : y.avoids hidden = true) {f f' : Fresh}
    {s : Sql.Statement} (h : y.prepare registry scope body f = .ok (s, f')) :
    (Node.statement s).ClosedIn visible := by
  cases y with
  | select selector =>
    obtain ⟨projection, prepared, rfl⟩ := Yield.prepare_select_eq_ok h
    have selected := selector.closedIn_of_prepare closed avoids prepared
    exact Body.closedIn_statement arranged selected nofun
  | group key element =>
    rw [Yield.avoids, Bool.and_eq_true] at avoids
    obtain ⟨projection, prepared, rfl⟩ := Yield.prepare_group_eq_ok h
    have selected := key.closedIn_of_prepare closed avoids.1 prepared
    exact Body.closedIn_statement arranged selected fun _ he => (Option.some.inj he).symm

/-- What an operator is told is closed around the statement, so the statement stays closed when its
tables become those of a source. -/
theorem prepareOperators_closedIn (operators : List Operator) {hidden : List String}
    {visible : Nat → Prop} {scope : Scope} (closed : scope.ClosedIn registry hidden visible)
    {s s' : Sql.Statement} (statement : (Node.statement s).ClosedIn visible)
    (avoids : operatorsAvoid hidden operators = true) {f f' : Fresh}
    (h : prepareOperators registry scope s operators f = .ok (s', f')) :
    (Node.statement s').ClosedIn visible := by
  cases operators with
  | nil =>
    obtain ⟨rfl, rfl⟩ := Supply.pure_eq_ok.mp h
    exact statement
  | cons operator rest =>
    obtain ⟨t, f₁, applied, others⟩ := prepareOperators_cons_eq_ok h
    cases operator with
    | take count =>
      rw [operatorsAvoid, Bool.and_eq_true] at avoids
      obtain ⟨count', f₂, prepared, limited⟩ := Supply.bind_eq_ok.mp applied
      have told := count.closedIn_of_prepare closed avoids.1 prepared
      exact prepareOperators_closedIn rest closed
        (Sql.Statement.closedIn_of_take statement told limited) avoids.2 others
    | skip offset =>
      rw [operatorsAvoid, Bool.and_eq_true] at avoids
      obtain ⟨offset', f₂, prepared, skipped⟩ := Supply.bind_eq_ok.mp applied
      have told := offset.closedIn_of_prepare closed avoids.1 prepared
      exact prepareOperators_closedIn rest closed
        (Sql.Statement.closedIn_of_skip statement told skipped) avoids.2 others
    | count | longCount | min | max | sum | average =>
      exact prepareOperators_closedIn rest closed
        (Sql.Statement.closedIn_of_aggregate statement applied) avoids others
    | first orDefault | single orDefault =>
      exact prepareOperators_closedIn rest closed
        (Sql.Statement.closedIn_of_singleRow statement applied) avoids others
    | distinct =>
      exact prepareOperators_closedIn rest closed
        (Sql.Statement.closedIn_of_distinct statement applied) avoids others
    | other name => exact (Supply.throw_ne_ok.mp applied).elim

theorem Model.closedIn_of_prepareIn (m : Model) {hidden : List String} {visible : Nat → Prop}
    {scope : Scope} (closed : scope.ClosedIn registry hidden visible)
    (avoids : m.avoids hidden = true) {f f' : Fresh} {s : Sql.Statement}
    (h : m.prepareIn registry scope f = .ok (s, f')) :
    (Node.statement s).ClosedIn visible := by
  obtain ⟨main, clauses, yield, operators⟩ := m
  simp only [Model.avoids, Bool.and_eq_true] at avoids
  obtain ⟨⟨⟨inMain, inClauses⟩, inYield⟩, inOperators⟩ := avoids
  obtain ⟨scope₁, body₁, f₁, scope₂, body₂, f₂, t, f₃, hm, hc, hy, ho⟩ :=
    Model.prepareIn_mk_eq_ok h
  have started : (⟨[], none, []⟩ : Body).ClosedIn visible :=
    ⟨nofun, nofun, rfl, Sql.sourcesClosedIn_nil⟩
  obtain ⟨closed₁, arranged₁⟩ := main.closedIn_of_prepare (by rwa [Sql.withTables_nil]) started
    inMain hm
  obtain ⟨closed₂, arranged₂⟩ :=
    prepareClauses_closedIn clauses closed₁ arranged₁ inClauses hc
  rw [← unbound_append, List.singleton_append] at closed₂
  have statement := yield.closedIn_of_prepare closed₂ arranged₂ inYield hy
  -- The names that operators may mention mean what they mean around the query.
  have outer : scope₂.ClosedIn registry (main.itemName :: clauses.flatMap Clause.binds ++ hidden)
      visible := by
    refine ⟨closed.invented, fun name e unhidden found => ?_⟩
    rw [List.mem_append, not_or] at unhidden
    have body : prepareClauses registry scope ⟨[], none, []⟩ (.source main :: clauses) f =
        .ok ((scope₂, body₂), f₂) := by
      rw [prepareClauses]
      exact Supply.bind_eq_ok.mpr ⟨_, f₁, by rwa [Clause.prepare], hc⟩
    rw [lookup_of_prepareClauses unhidden.1 body] at found
    exact closed.names name e unhidden.2 found
  exact prepareOperators_closedIn operators outer statement inOperators ho

end

end Preparation

end Query

end Comprehension
