import Comprehension.Proofs.Arrangement
import Comprehension.Proofs.PreparationSteps

/-!
Preparation of a query. Every statement that it makes is put together of what the names of the
scope stand for, and of fresh aliases; it addresses no column yet.
-/
namespace Comprehension.Query

open Method.Registry (defaults transform_builds)
open Sql (Arranged Built Ground Made Node Prepares)

/-- What the names of a scope stand for. -/
def scopeNodes (scope : Scope) : List Node := scope.map fun entry => .expression entry.2

theorem mem_scopeNodes {scope : Scope} {name : String} {e : Sql.Expr}
    (h : scope.lookup name = some e) : .expression e ∈ scopeNodes scope := by
  obtain ⟨before, after, rfl, -⟩ := List.lookup_eq_some_iff.mp h
  exact List.mem_map.mpr ⟨(name, e), by simp, rfl⟩

/-- What the clauses are made of so far. -/
def Body.nodes (body : Body) : List Node :=
  body.condition.toList.map .expression ++ (body.orderings.map (fun o => .expression o.expression) ++
    (Sql.sourceStatements body.tables).map .statement)

theorem Body.forall_nodes {P : Node → Prop} {body : Body} :
    (∀ n ∈ body.nodes, P n) ↔
      (∀ e, body.condition = some e → P (.expression e)) ∧
        (∀ o ∈ body.orderings, P (.expression o.expression)) ∧
        ∀ t ∈ Sql.sourceStatements body.tables, P (.statement t) := by
  simp only [nodes, List.forall_mem_append, List.forall_mem_map, Option.mem_toList]

/-- Every part of the clauses is one of the trees that are there. -/
theorem Body.built_nodes (body : Body) (scope : Scope) (added : List Node) :
    ∀ n ∈ body.nodes, Built (scopeNodes scope ++ body.nodes ++ added) n := fun _ hn =>
  .part (List.mem_append_left _ (List.mem_append_right _ hn))

theorem built_scope (scope : Scope) (others added : List Node) :
    ∀ n ∈ scopeNodes scope, Built (scopeNodes scope ++ others ++ added) n := fun _ hn =>
  .part (List.mem_append_left _ (List.mem_append_left _ hn))

/-- A selection is added to the clauses, or a group key, which is selected as well. -/
theorem Body.arranged_statement {body : Body} {scope : Scope} {f₀ f : Fresh} {ns₀ : List Node}
    {projection : Sql.Expr} {grouping : Option Sql.Expr}
    (h : Arranged f₀ ns₀ f body.tables
      (scopeNodes scope ++ body.nodes ++ [Node.expression projection]))
    (hg : ∀ e, grouping = some e → e = projection) :
    Arranged f₀ ns₀ f (body.statement projection grouping).tables
      (scopeNodes scope ++ (body.statement projection grouping).parts) := by
  refine h.built (List.forall_mem_append.mpr ⟨built_scope scope _ _, ?_⟩)
  obtain ⟨condition, orderings, sources⟩ := forall_nodes.mp (body.built_nodes scope _)
  have selected : Built (scopeNodes scope ++ body.nodes ++ [Node.expression projection])
      (.expression projection) := .part (List.mem_append_right _ List.mem_cons_self)
  refine Sql.Statement.forall_parts.mpr ⟨selected, condition, ?_, orderings, ?_, ?_, ?_, sources⟩
  · exact fun e he => hg e he ▸ selected
  all_goals exact fun e he => nomatch he

section Built

variable {parts : List Node} {left right source e : Sql.Expr} {type : ValueType}

theorem BinaryOp.built_prepared (op : BinaryOp) (hl : Built parts (.expression left))
    (hr : Built parts (.expression right)) :
    Built parts (.expression (op.prepared left right type)) := by
  cases op with
  | andAlso | orElse => exact .logical hl hr
  | coalesce => exact .function (by simp [hl, hr]) (by decide)
  | add =>
    rw [prepared]
    split
    · exact .binary hl hr
    · exact .binary hl hr
  | _ => exact .binary hl hr

theorem built_mappedMember {name text : String}
    (h : mappedMember defaults source name type text = .ok e) :
    Built [.expression source] (.expression e) := by
  unfold mappedMember at h
  split at h
  case h_4 => exact transform_builds _ e h
  all_goals
    obtain rfl := Except.ok.inj h
    exact .plain rfl rfl (by simpa [Sql.Expr.slots] using .part List.mem_cons_self)

theorem built_preparedMember {name text : String}
    (h : preparedMember defaults source name type text = .ok e) :
    Built [.expression source] (.expression e) := by
  have whole : Built [.expression source] (.expression source) := .part List.mem_cons_self
  unfold preparedMember at h
  split at h
  · split at h
    · obtain rfl := Except.ok.inj h
      exact whole
    · split at h
      · obtain rfl := Except.ok.inj h
        exact .binary whole (.constant _ _)
      · exact built_mappedMember h
  · exact built_mappedMember h

end Built

mutual

/-- An expression is put together of what the names stand for. -/
theorem Expr.prepares (e : Expr) {scope : Scope} {f f' : Fresh}
    (ground : Ground f (scopeNodes scope)) {e' : Sql.Expr}
    (h : e.prepare defaults scope f = .ok (e', f')) :
    Prepares f f' (scopeNodes scope) [.expression e'] := by
  cases e with
  | constant value type =>
    obtain ⟨rfl, rfl⟩ := Supply.pure_eq_ok.mp h
    exact (Prepares.self ground).built (by simpa using .constant _ _)
  | queryable itemType => exact (Supply.throw_ne_ok.mp h).elim
  | item name type =>
    obtain ⟨found, rfl⟩ := Expr.prepare_item_eq_ok h
    exact (Prepares.self ground).built (by simpa using .part (mem_scopeNodes found))
  | member source name type =>
    obtain ⟨source', prepared, member⟩ := Expr.prepare_member_eq_ok h
    exact (source.prepares ground prepared).built (by simpa using built_preparedMember member)
  | binary op left right type =>
    obtain ⟨left', f₁, right', hl, hr, rfl⟩ := Expr.prepare_binary_eq_ok h
    have before := left.prepares ground hl
    have after := right.prepares (ground.extends before.supply) hr
    refine (before.both after).built (List.forall_mem_singleton.mpr ?_)
    exact op.built_prepared (.part (by simp)) (.part (by simp))
  | not operand =>
    obtain ⟨operand', prepared, rfl⟩ := Expr.prepare_not_eq_ok h
    refine (operand.prepares ground prepared).built (List.forall_mem_singleton.mpr (.plain rfl rfl ?_))
    simpa [Sql.Expr.slots] using .part (by simp)
  | conditional test ifTrue ifFalse type =>
    obtain ⟨test', f₁, ifTrue', f₂, ifFalse', ht, hi, he, rfl⟩ :=
      Expr.prepare_conditional_eq_ok h
    have first := test.prepares ground ht
    have second := first.both (ifTrue.prepares (ground.extends first.supply) hi)
    have third := second.both (ifFalse.prepares (ground.extends second.supply) he)
    refine third.built (List.forall_mem_singleton.mpr (.plain rfl rfl ?_))
    simp [Sql.Expr.slots, Made.part]
  | call object declaringType method parameterTypes arguments type =>
    obtain ⟨object', f₁, arguments', ho, ha, transformed⟩ := Expr.prepare_call_eq_ok h
    have before := prepareObject_prepares object ground ho
    have after := prepareArguments_prepares arguments (ground.extends before.supply) ha
    refine (before.both after).built (List.forall_mem_singleton.mpr ?_)
    rw [← List.map_append]
    exact transform_builds _ _ transformed
  | record members =>
    obtain ⟨members', prepared, rfl⟩ := Expr.prepare_record_eq_ok h
    refine (prepareMembers_prepares members ground prepared).built
      (List.forall_mem_singleton.mpr (.plain rfl rfl ?_))
    exact List.forall_mem_map.mpr fun n hn => .part (List.mem_map_of_mem hn)
  | subQuery model =>
    obtain ⟨s, prepared, rfl⟩ := Expr.prepare_subQuery_eq_ok h
    exact (model.prepares ground prepared).1.wrap

theorem prepareObject_prepares (object : Option Expr) {scope : Scope} {f f' : Fresh}
    (ground : Ground f (scopeNodes scope)) {object' : Option Sql.Expr}
    (h : prepareObject defaults scope object f = .ok (object', f')) :
    Prepares f f' (scopeNodes scope) (object'.toList.map .expression) := by
  cases object with
  | none =>
    obtain ⟨rfl, rfl⟩ := Supply.pure_eq_ok.mp h
    exact (Prepares.self ground).built (by simp)
  | some object =>
    obtain ⟨prepared, ho, rfl⟩ := prepareObject_some_eq_ok h
    exact object.prepares ground ho

theorem prepareArguments_prepares (arguments : List Expr) {scope : Scope} {f f' : Fresh}
    (ground : Ground f (scopeNodes scope)) {arguments' : List Sql.Expr}
    (h : prepareArguments defaults scope arguments f = .ok (arguments', f')) :
    Prepares f f' (scopeNodes scope) (arguments'.map .expression) := by
  cases arguments with
  | nil =>
    obtain ⟨rfl, rfl⟩ := Supply.pure_eq_ok.mp h
    exact (Prepares.self ground).built (by simp)
  | cons argument rest =>
    obtain ⟨argument', f₁, rest', ha, hr, rfl⟩ := prepareArguments_cons_eq_ok h
    have before := argument.prepares ground ha
    exact before.both (prepareArguments_prepares rest (ground.extends before.supply) hr)

theorem prepareMembers_prepares (members : List (String × Expr)) {scope : Scope} {f f' : Fresh}
    (ground : Ground f (scopeNodes scope)) {members' : List Sql.Named}
    (h : prepareMembers defaults scope members f = .ok (members', f')) :
    Prepares f f' (scopeNodes scope) (members'.map fun n => .expression n.expression) := by
  cases members with
  | nil =>
    obtain ⟨rfl, rfl⟩ := Supply.pure_eq_ok.mp h
    exact (Prepares.self ground).built (by simp)
  | cons member rest =>
    obtain ⟨name, member⟩ := member
    obtain ⟨member', f₁, rest', hm, hr, rfl⟩ := prepareMembers_cons_eq_ok h
    have before := member.prepares ground hm
    exact before.both (prepareMembers_prepares rest (ground.extends before.supply) hr)

theorem prepareOrderings_prepares (orderings : List Ordering) {scope : Scope} {f f' : Fresh}
    (ground : Ground f (scopeNodes scope)) {orderings' : List Sql.Ordering}
    (h : prepareOrderings defaults scope orderings f = .ok (orderings', f')) :
    Prepares f f' (scopeNodes scope) (orderings'.map fun o => .expression o.expression) := by
  cases orderings with
  | nil =>
    obtain ⟨rfl, rfl⟩ := Supply.pure_eq_ok.mp h
    exact (Prepares.self ground).built (by simp)
  | cons ordering rest =>
    obtain ⟨e, direction⟩ := ordering
    obtain ⟨e', f₁, rest', he, hr, rfl⟩ := prepareOrderings_cons_eq_ok h
    have before := e.prepares ground he
    exact before.both (prepareOrderings_prepares rest (ground.extends before.supply) hr)

/-- The rows of a source become a table of the statement. -/
theorem prepareRows_arranges (e : Expr) {scope : Scope} {f₀ f f' : Fresh} {ns₀ : List Node}
    {tables : List Sql.Table} {ns : List Node}
    (arranged : Arranged f₀ ns₀ f tables (scopeNodes scope ++ ns)) {itemName : String} (key : Nat)
    {rows : Sql.Source} (h : prepareRows defaults scope itemName e f = .ok (rows, f')) :
    Arranged f₀ ns₀ f' (tables ++ [Sql.Table.ofSource key rows .inner])
      (scopeNodes scope ++ ns ++ rows.statement?.toList.map .statement) := by
  cases e with
  | queryable itemType =>
    obtain ⟨rfl, rfl⟩ := Supply.pure_eq_ok.mp h
    exact (arranged.unresolved key itemType .inner).subset (by simp [Sql.Source.statement?])
  | subQuery model =>
    obtain ⟨s, f₁, tableAlias, prepared, drawn, rfl⟩ := prepareRows_subQuery_eq_ok h
    obtain ⟨rfl, rfl⟩ := Prod.mk.inj (Supply.freshAlias_eq_ok.mp drawn)
    have inner := (model.prepares (arranged.ground.subset (List.subset_append_left _ _)) prepared).2
    exact (arranged.extend inner (List.subset_append_left _ _)).source key s.asSource .inner
      s.projection.isColumned_withColumnName
  | _ => exact (Supply.throw_ne_ok.mp h).elim

theorem Source.arranges (source : Source) {scope scope' : Scope} {body body' : Body}
    {f₀ f f' : Fresh} {ns₀ : List Node}
    (arranged : Arranged f₀ ns₀ f body.tables (scopeNodes scope ++ body.nodes))
    (h : source.prepare defaults scope body f = .ok ((scope', body'), f')) :
    Arranged f₀ ns₀ f' body'.tables (scopeNodes scope' ++ body'.nodes) := by
  obtain ⟨itemName, itemType, source⟩ := source
  obtain ⟨key, f₁, rows, drawn, prepared, rfl, rfl⟩ := Source.prepare_eq_ok h
  obtain ⟨rfl, rfl⟩ := Prod.mk.inj (Supply.freshKey_eq_ok.mp drawn)
  refine (prepareRows_arranges source (arranged.advance f.extends_key) f.key.1 prepared).built ?_
  refine List.forall_mem_append.mpr ⟨List.forall_mem_cons.mpr
    ⟨Arranged.tableReference _ _, built_scope scope _ _⟩, ?_⟩
  obtain ⟨condition, orderings, sources⟩ := Body.forall_nodes.mp (body.built_nodes scope _)
  refine Body.forall_nodes.mpr ⟨condition, orderings, fun t ht => ?_⟩
  rw [Sql.sourceStatements, List.filterMap_append, List.mem_append] at ht
  rcases ht with ht | ht
  · exact sources t ht
  · refine .part (List.mem_append_right _ (List.mem_map_of_mem ?_))
    simpa [Sql.Table.ofSource] using ht

theorem Clause.arranges (clause : Clause) {scope scope' : Scope} {body body' : Body}
    {f₀ f f' : Fresh} {ns₀ : List Node}
    (arranged : Arranged f₀ ns₀ f body.tables (scopeNodes scope ++ body.nodes))
    (h : clause.prepare defaults scope body f = .ok ((scope', body'), f')) :
    Arranged f₀ ns₀ f' body'.tables (scopeNodes scope' ++ body'.nodes) := by
  have ground := arranged.ground.subset (List.subset_append_left _ _)
  cases clause with
  | source source => exact source.arranges arranged h
  | filter predicate =>
    obtain ⟨condition, prepared, rfl, rfl⟩ := Clause.prepare_filter_eq_ok h
    have added := arranged.extend (predicate.prepares ground prepared) (List.subset_append_left _ _)
    refine added.built (List.forall_mem_append.mpr ⟨built_scope scope _ _, ?_⟩)
    obtain ⟨existing, others⟩ := Body.forall_nodes.mp (body.built_nodes scope [.expression condition])
    refine Body.forall_nodes.mpr ⟨Arranged.conjoined existing ?_, others⟩
    exact .part (List.mem_append_right _ List.mem_cons_self)
  | orderBy orderings =>
    obtain ⟨orderings', prepared, rfl, rfl⟩ := Clause.prepare_orderBy_eq_ok h
    have added := arranged.extend (prepareOrderings_prepares orderings ground prepared)
      (List.subset_append_left _ _)
    refine added.built (List.forall_mem_append.mpr ⟨built_scope scope _ _, ?_⟩)
    obtain ⟨condition, existing, sources⟩ := Body.forall_nodes.mp (body.built_nodes scope _)
    refine Body.forall_nodes.mpr ⟨condition, List.forall_mem_append.mpr ⟨?_, existing⟩, sources⟩
    exact fun o ho => .part (List.mem_append_right _ (List.mem_map_of_mem ho))
  | bind name e =>
    obtain ⟨e', prepared, rfl, rfl⟩ := Clause.prepare_bind_eq_ok h
    have added := arranged.extend (e.prepares ground prepared) (List.subset_append_left _ _)
    refine added.built (List.forall_mem_append.mpr ⟨List.forall_mem_cons.mpr ⟨?_, ?_⟩, ?_⟩)
    · exact .part (List.mem_append_right _ List.mem_cons_self)
    · exact built_scope scope _ _
    · exact body.built_nodes scope _
  | keyJoin => exact (Supply.throw_ne_ok.mp h).elim
  | groupJoin => exact (Supply.throw_ne_ok.mp h).elim

theorem prepareClauses_arranges (clauses : List Clause) {scope scope' : Scope} {body body' : Body}
    {f₀ f f' : Fresh} {ns₀ : List Node}
    (arranged : Arranged f₀ ns₀ f body.tables (scopeNodes scope ++ body.nodes))
    (h : prepareClauses defaults scope body clauses f = .ok ((scope', body'), f')) :
    Arranged f₀ ns₀ f' body'.tables (scopeNodes scope' ++ body'.nodes) := by
  cases clauses with
  | nil =>
    obtain ⟨same, rfl⟩ := Supply.pure_eq_ok.mp h
    obtain ⟨rfl, rfl⟩ := Prod.mk.inj same
    exact arranged
  | cons clause rest =>
    obtain ⟨⟨scope₁, body₁⟩, f₁, first, others⟩ := Supply.bind_eq_ok.mp h
    exact prepareClauses_arranges rest (clause.arranges arranged first) others

theorem Yield.arranges (y : Yield) {scope : Scope} {body : Body} {f₀ f f' : Fresh} {ns₀ : List Node}
    (arranged : Arranged f₀ ns₀ f body.tables (scopeNodes scope ++ body.nodes)) {s : Sql.Statement}
    (h : y.prepare defaults scope body f = .ok (s, f')) :
    Arranged f₀ ns₀ f' s.tables (scopeNodes scope ++ s.parts) := by
  have ground := arranged.ground.subset (List.subset_append_left _ _)
  cases y with
  | select selector =>
    obtain ⟨projection, prepared, rfl⟩ := Yield.prepare_select_eq_ok h
    have added := arranged.extend (selector.prepares ground prepared) (List.subset_append_left _ _)
    exact Body.arranged_statement added (fun _ he => nomatch he)
  | group key element =>
    obtain ⟨projection, prepared, rfl⟩ := Yield.prepare_group_eq_ok h
    have added := arranged.extend (key.prepares ground prepared) (List.subset_append_left _ _)
    exact Body.arranged_statement added (fun _ he => (Option.some.inj he).symm)

theorem Operator.arranges (operator : Operator) {scope : Scope} {f₀ f f' : Fresh} {ns₀ : List Node}
    (ground : Ground f₀ ns₀) {s s' : Sql.Statement}
    (arranged : Arranged f₀ ns₀ f s.tables (scopeNodes scope ++ s.parts))
    (h : operator.prepare defaults scope s f = .ok (s', f')) :
    Arranged f₀ ns₀ f' s'.tables (scopeNodes scope ++ s'.parts) := by
  cases operator with
  | take count =>
    obtain ⟨count', f₁, prepared, limited⟩ := Supply.bind_eq_ok.mp h
    have within := arranged.ground.subset (List.subset_append_left _ _)
    have added := arranged.operand (count.prepares within prepared)
    exact (added.take ground (by simp) limited).withoutOperand
  | skip offset =>
    obtain ⟨offset', f₁, prepared, skipped⟩ := Supply.bind_eq_ok.mp h
    have within := arranged.ground.subset (List.subset_append_left _ _)
    have added := arranged.operand (offset.prepares within prepared)
    exact (added.skip ground (by simp) skipped).withoutOperand
  | count | longCount | min | max | sum | average => exact Arranged.aggregate ground arranged h
  | first orDefault | single orDefault => exact Arranged.singleRow ground arranged h
  | distinct => exact Arranged.distinct ground arranged h
  | other name => exact (Supply.throw_ne_ok.mp h).elim

theorem prepareOperators_arranges (operators : List Operator) {scope : Scope} {f₀ f f' : Fresh}
    {ns₀ : List Node} (ground : Ground f₀ ns₀) {s s' : Sql.Statement}
    (arranged : Arranged f₀ ns₀ f s.tables (scopeNodes scope ++ s.parts))
    (h : prepareOperators defaults scope s operators f = .ok (s', f')) :
    Arranged f₀ ns₀ f' s'.tables (scopeNodes scope ++ s'.parts) := by
  cases operators with
  | nil =>
    obtain ⟨rfl, rfl⟩ := Supply.pure_eq_ok.mp h
    exact arranged
  | cons operator rest =>
    obtain ⟨t, f₁, first, others⟩ := prepareOperators_cons_eq_ok h
    exact prepareOperators_arranges rest ground (operator.arranges ground arranged first) others

/-- A query is prepared to a statement of what the names stand for, also where it is a source. -/
theorem Model.prepares (m : Model) {scope : Scope} {f f' : Fresh}
    (ground : Ground f (scopeNodes scope)) {s : Sql.Statement}
    (h : m.prepareIn defaults scope f = .ok (s, f')) :
    Prepares f f' (scopeNodes scope) [.statement s] ∧
      Prepares f f' (scopeNodes scope) [.statement s.asSource] := by
  obtain ⟨main, clauses, yield, operators⟩ := m
  obtain ⟨scope₁, body₁, f₁, scope₂, body₂, f₂, t, f₃, hm, hc, hy, ho⟩ :=
    Model.prepareIn_mk_eq_ok h
  have started : Arranged f (scopeNodes scope) f [] (scopeNodes scope ++ (⟨[], none, []⟩ : Body).nodes) :=
    (Arranged.start ground (.self ground)).subset (by simp [Body.nodes, Sql.sourceStatements])
  have body := prepareClauses_arranges clauses (main.arranges started hm) hc
  have whole := prepareOperators_arranges operators ground (yield.arranges body hy) ho
  obtain ⟨statement, source⟩ := whole.finish
  exact ⟨statement.built fun n hn => .part (List.mem_append_right _ hn),
    source.built fun n hn => .part (List.mem_append_right _ hn)⟩

end

/-- A query on its own is prepared without any name in scope. -/
theorem Model.ground_of_prepare {m : Model} {f₀ f : Fresh} {t : Sql.Statement}
    (h : m.prepare defaults f₀ = .ok (t, f)) : Ground f [.statement t] := by
  have nothing : Ground f₀ (scopeNodes []) :=
    ⟨List.forall_mem_nil _, List.forall_mem_nil _, List.forall_mem_nil _⟩
  exact (m.prepares nothing h).1.ground nothing

/-- Whether what the names of a scope stand for has a value on each row. -/
def Scope.IsRowwise (scope : Scope) : Prop :=
  ∀ name e, scope.lookup name = some e → e.kind.isRowwise = true

mutual

/-- An expression has a value on each row. -/
theorem Expr.rowwise_of_prepare (e : Expr) {scope : Scope} (rowwise : scope.IsRowwise)
    {f f' : Fresh} {e' : Sql.Expr} (h : e.prepare defaults scope f = .ok (e', f')) :
    e'.kind.isRowwise = true := by
  cases e with
  | constant value type =>
    obtain ⟨rfl, rfl⟩ := Supply.pure_eq_ok.mp h
    rfl
  | queryable itemType => exact (Supply.throw_ne_ok.mp h).elim
  | item name type =>
    obtain ⟨found, rfl⟩ := Expr.prepare_item_eq_ok h
    exact rowwise name e' found
  | member source name type =>
    obtain ⟨source', prepared, member⟩ := Expr.prepare_member_eq_ok h
    have operand := source.rowwise_of_prepare rowwise prepared
    exact (built_preparedMember member).rowwise (by simpa using operand)
  | binary op left right type =>
    obtain ⟨left', f₁, right', hl, hr, rfl⟩ := Expr.prepare_binary_eq_ok h
    have left := left.rowwise_of_prepare rowwise hl
    have right := right.rowwise_of_prepare rowwise hr
    have built : Built [.expression left', .expression right']
        (.expression (op.prepared left' right' type)) :=
      op.built_prepared (.part (by simp)) (.part (by simp))
    exact built.rowwise (by simp [left, right])
  | call object declaringType method parameterTypes arguments type =>
    obtain ⟨object', f₁, arguments', ho, ha, transformed⟩ := Expr.prepare_call_eq_ok h
    refine (transform_builds _ _ transformed).rowwise fun e mem => ?_
    obtain ⟨e, he, same⟩ := List.mem_map.mp mem
    cases same
    rcases List.mem_append.mp he with he | he
    · exact prepareObject_rowwise object rowwise ho e (Option.mem_toList.mp he)
    · exact prepareArguments_rowwise arguments rowwise ha e he
  | not operand =>
    obtain ⟨operand', -, rfl⟩ := Expr.prepare_not_eq_ok h
    rfl
  | conditional test ifTrue ifFalse type =>
    obtain ⟨test', f₁, ifTrue', f₂, ifFalse', -, -, -, rfl⟩ :=
      Expr.prepare_conditional_eq_ok h
    rfl
  | record members =>
    obtain ⟨members', -, rfl⟩ := Expr.prepare_record_eq_ok h
    rfl
  | subQuery model =>
    obtain ⟨s, -, rfl⟩ := Expr.prepare_subQuery_eq_ok h
    rfl

theorem prepareObject_rowwise (object : Option Expr) {scope : Scope} (rowwise : scope.IsRowwise)
    {f f' : Fresh} {object' : Option Sql.Expr}
    (h : prepareObject defaults scope object f = .ok (object', f')) :
    ∀ e ∈ object', e.kind.isRowwise = true := by
  cases object with
  | none =>
    obtain ⟨rfl, rfl⟩ := Supply.pure_eq_ok.mp h
    simp
  | some object =>
    obtain ⟨prepared, ho, rfl⟩ := prepareObject_some_eq_ok h
    simpa using object.rowwise_of_prepare rowwise ho

theorem prepareArguments_rowwise (arguments : List Expr) {scope : Scope}
    (rowwise : scope.IsRowwise) {f f' : Fresh} {arguments' : List Sql.Expr}
    (h : prepareArguments defaults scope arguments f = .ok (arguments', f')) :
    ∀ e ∈ arguments', e.kind.isRowwise = true := by
  cases arguments with
  | nil =>
    obtain ⟨rfl, rfl⟩ := Supply.pure_eq_ok.mp h
    simp
  | cons argument rest =>
    obtain ⟨argument', f₁, rest', ha, hr, rfl⟩ := prepareArguments_cons_eq_ok h
    exact List.forall_mem_cons.mpr
      ⟨argument.rowwise_of_prepare rowwise ha, prepareArguments_rowwise rest rowwise hr⟩

end

end Comprehension.Query
