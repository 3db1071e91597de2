import Comprehension.Proofs.OperatorSteps

/-!
What a prepared statement says that it yields, and what it selects. Each step of preparation sets
the type of a shape on its own; it is the type of the projection nevertheless, at every depth.
-/
namespace Comprehension.Sql

namespace Shape

/-- What a statement yields, but for types. -/
inductive Form where
  | sequence
  | singleValue (orDefault : Bool)
  | scalar
deriving DecidableEq

def form : Shape → Form
  | sequence _ => .sequence
  | singleValue _ orDefault => .singleValue orDefault
  | scalar _ => .scalar

theorem form_withRowType (type : ValueType) (shape : Shape) :
    (shape.withRowType type).form = shape.form := by
  cases shape <;> rfl

end Shape

namespace Statement

/-- Whether the shape of a statement has the type of what is selected. -/
def Shaped (s : Statement) : Prop := s.shape.rowType = s.projection.type

/-- The form of the statement that is reached by going from a table to its source again and again,
each table given by its place among the tables. -/
def formAt : List Nat → Statement → Option Shape.Form
  | [], s => some s.shape.form
  | index :: path, s =>
    (s.tables[index]?).bind fun table => table.source.statement?.bind fun inner => inner.formAt path

/-- A shaped statement, in which one computed value is an aggregate: no resolution changes the type
of an aggregate, and no shape of a computed value changes with a type. -/
structure Typed (s : Statement) : Prop where
  shaped : s.Shaped
  computed : ∀ type, s.shape = .scalar type → s.projection.unnamed.kind = .aggregation

end Statement

namespace Node

def IsTyped : Node → Prop
  | .expression e => e.kind ≠ .named
  | .statement s => s.Typed

/-- Whether all statements in a tree are typed, and projections alone have names. -/
def Typed (n : Node) : Prop := n.Everywhere IsTyped

end Node

variable {s t u : Statement} {f f' : Fresh} {ns : List Node}

theorem Built.typed {n : Node} (hn : ∀ n ∈ ns, n.Typed) (h : Built ns n) : n.Typed := by
  apply h.everywhere _ hn
  intro e built _ named
  rw [named] at built
  cases built

namespace Statement

theorem Typed.of_eq (h : s.Typed) (projection : t.projection = s.projection)
    (shape : t.shape = s.shape) : t.Typed := by
  constructor
  · rw [Shaped, projection, shape]
    exact h.shaped
  · rw [projection, shape]
    exact h.computed

/-- A statement under construction is typed, and so is everything that it is made of. -/
structure Drafted (s : Statement) : Prop where
  typed : s.Typed
  parts : ∀ n ∈ s.parts, n.Typed

namespace Drafted

theorem unnamed (h : s.Drafted) : s.projection.kind ≠ .named :=
  (h.parts _ List.mem_cons_self).here

theorem whole (h : s.Drafted) : (Node.statement s).Typed := by
  have below := children_subset rfl (Expr.unnamed_eq_self h.unnamed) (List.Subset.refl s.clauses)
  exact .intro h.typed fun child hc => h.parts child (below hc)

/-- A name changes neither what is selected nor its type. -/
theorem source (h : s.Drafted) : (Node.statement s.asSource).Typed := by
  have unnamed : s.asSource.projection.unnamed = s.projection :=
    Expr.unnamed_withColumnName h.unnamed
  have below := children_subset (s := s) (t := s.asSource) rfl unnamed s.clauses_asSource
  refine .intro ⟨?_, fun type scalar => ?_⟩ fun child hc => h.parts child (below hc)
  · exact h.typed.shaped.trans s.projection.type_withColumnName.symm
  · have computed := h.typed.computed type scalar
    rwa [Expr.unnamed_eq_self h.unnamed, ← unnamed] at computed

theorem tableReference (key : Nat) (type : ValueType) :
    (Node.expression (.tableReference key type)).Typed :=
  Built.typed (List.forall_mem_nil _) (Arranged.tableReference key type)

theorem around (h : s.Drafted) (key : Nat) (tableAlias : String) :
    (around key tableAlias s.asSource).Drafted := by
  have below : ∀ inner ∈ sourceStatements (Statement.around key tableAlias s.asSource).tables,
      (Node.statement inner).Typed := List.forall_mem_singleton.mpr h.source
  refine ⟨⟨rfl, nofun⟩, forall_parts.mpr ⟨tableReference _ _, ?_⟩⟩
  exact ⟨nofun, nofun, List.forall_mem_nil _, nofun, nofun, nofun, below⟩

theorem nests {nested : Bool} (h : s.Drafted) (hn : Nests nested s t) : t.Drafted := by
  cases hn with
  | stays => exact h
  | around => exact h.around _ _

theorem aggregate {function : Aggregate} {type? : Option ValueType} (h : s.Drafted)
    (ha : s.aggregate function type? f = .ok (t, f')) : t.Drafted := by
  obtain ⟨u, type, nests, rfl⟩ := aggregate_cases ha
  obtain ⟨projection, condition, grouping, -, others⟩ := forall_parts.mp (h.nests nests).parts
  have computed : (Node.expression (.aggregation function u.projection type)).Typed :=
    .ofSlots (by simp) (by simp [Node.IsTyped, Expr.kind]) (List.forall_mem_singleton.mpr projection)
  refine ⟨⟨rfl, fun _ _ => rfl⟩, forall_parts.mpr ?_⟩
  exact ⟨computed, condition, grouping, List.forall_mem_nil _, others⟩

theorem conjoined {existing : Option Expr} {condition : Expr}
    (he : ∀ e, existing = some e → (Node.expression e).Typed)
    (hc : (Node.expression condition).Typed) :
    (Node.expression (Sql.conjoined existing condition)).Typed := by
  cases existing with
  | none => exact hc
  | some first =>
    have parts : ∀ n ∈ [Node.expression first, Node.expression condition], n.Typed := by
      simp [he first rfl, hc]
    exact Built.typed parts (.logical (.part (by simp)) (.part (by simp)))

/-- A statement with other rows of the same kind. -/
theorem limited (h : s.Drafted) {top : Expr} (ht : (Node.expression top).Typed) {shape : Shape}
    (typed : { s with top := some top, shape }.Typed) :
    { s with top := some top, shape }.Drafted := by
  obtain ⟨projection, condition, grouping, orderings, -, others⟩ := forall_parts.mp h.parts
  refine ⟨typed, forall_parts.mpr ⟨projection, condition, grouping, orderings, ?_, others⟩⟩
  intro e same
  rw [← Option.some.inj same]
  exact ht

theorem take {count : Expr} (h : s.Drafted) (hc : (Node.expression count).Typed)
    (ht : s.take count f = .ok (t, f')) : t.Drafted := by
  rcases take_cases ht with ⟨rowNumber, offset, number, start, rfl⟩ | ⟨-, u, nests, rfl⟩
  · obtain ⟨projection, condition, grouping, orderings, top, rowNumbers, offsets, sources⟩ :=
      forall_parts.mp h.parts
    have operands : ∀ n ∈ [Node.expression rowNumber, Node.expression offset,
        Node.expression count], n.Typed := by
      simp [rowNumbers rowNumber number, offsets offset start, hc]
    have bound : (Node.expression
        (.binaryOf .lessThanOrEqual rowNumber (.add offset count))).Typed :=
      Built.typed operands
        (.binary (.part (by simp)) (.binary (.part (by simp)) (.part (by simp))))
    refine ⟨h.typed.of_eq rfl rfl, forall_parts.mpr ⟨projection, ?_, grouping, orderings, top,
      rowNumbers, offsets, sources⟩⟩
    intro e same
    rw [← Option.some.inj same]
    exact conjoined condition bound
  · have before := h.nests nests
    exact before.limited hc (before.typed.of_eq rfl rfl)

theorem singleRow {rows : Int} {orDefault : Bool} (h : s.Drafted)
    (hs : s.singleRow rows orDefault f = .ok (t, f')) : t.Drafted := by
  obtain ⟨u, nests, rfl⟩ := singleRow_cases hs
  have count : (Node.expression (.int rows)).Typed := Built.typed (List.forall_mem_nil _) (.int rows)
  exact (h.nests nests).limited count ⟨rfl, nofun⟩

theorem distinct (h : s.Drafted) (hd : s.distinct f = .ok (t, f')) : t.Drafted := by
  obtain ⟨u, nests, rfl⟩ := distinct_cases hd
  have before := h.nests nests
  exact ⟨before.typed.of_eq rfl rfl, before.parts⟩

theorem numbered (h : s.Drafted) : s.numbered.Drafted := by
  obtain ⟨projection, condition, grouping, orderings, others⟩ := forall_parts.mp h.parts
  have keys : ∀ o ∈ s.numbering, (Node.expression o.expression).Typed := by
    unfold numbering
    split
    · have one : (Node.expression (.int 1)).Typed := Built.typed (List.forall_mem_nil _) (.int 1)
      exact List.forall_mem_singleton.mpr one
    · exact orderings
  have number : (Node.expression (.rowNumber s.numbering)).Typed :=
    .ofSlots (by simp) (by simp [Node.IsTyped, Expr.kind]) (List.forall_mem_map.mpr keys)
  have row : (Node.expression s.numbered.projection).Typed :=
    .ofSlots (by simp [Statement.numbered]) (by simp [Node.IsTyped, Statement.numbered, Expr.kind])
      (List.forall_mem_cons.mpr ⟨projection, List.forall_mem_singleton.mpr number⟩)
  refine ⟨⟨rfl, ?_⟩, forall_parts.mpr ?_⟩
  · rintro _ ⟨⟩
  · exact ⟨row, condition, grouping, List.forall_mem_nil _, others⟩

theorem skip {offset : Expr} (h : s.Drafted) (ho : (Node.expression offset).Typed)
    (hs : s.skip offset f = .ok (t, f')) : t.Drafted := by
  obtain ⟨u, key, tableAlias, nests, rfl⟩ := skip_cases hs
  have inner := (h.nests nests).numbered.source
  have member (name : String) (rowType type : ValueType) :
      Built [.expression offset] (.expression (.member (.tableReference key rowType) name type)) :=
    .plain rfl rfl (List.forall_mem_singleton.mpr (Arranged.tableReference key rowType))
  have typed {e : Expr} (built : Built [.expression offset] (.expression e)) :
      (Node.expression e).Typed := Built.typed (List.forall_mem_singleton.mpr ho) built
  have number := typed (member rowNumberName u.numbered.asSource.projection.type .int64)
  refine ⟨⟨rfl, nofun⟩, forall_parts.mpr ⟨typed (member _ _ _), ?_, nofun, ?_, nofun, ?_, ?_, ?_⟩⟩
  · intro e same
    rw [← Option.some.inj same]
    exact typed (.binary (member _ _ _) (.part List.mem_cons_self))
  · exact List.forall_mem_singleton.mpr number
  · intro e same
    rw [← Option.some.inj same]
    exact number
  · intro e same
    rw [← Option.some.inj same]
    exact ho
  · exact List.forall_mem_singleton.mpr inner

end Drafted

end Statement

end Comprehension.Sql

namespace Comprehension.Query

open Method.Registry (defaults transform_builds)
open Sql (Built Node)

theorem Body.drafted_statement {body : Body} {projection : Sql.Expr} {grouping : Option Sql.Expr}
    (hb : ∀ n ∈ body.nodes, n.Typed) (hp : (Node.expression projection).Typed)
    (hg : ∀ e, grouping = some e → (Node.expression e).Typed) :
    (body.statement projection grouping).Drafted := by
  obtain ⟨condition, orderings, sources⟩ := forall_nodes.mp hb
  refine ⟨⟨rfl, nofun⟩, Sql.Statement.forall_parts.mpr ?_⟩
  exact ⟨hp, condition, hg, orderings, nofun, nofun, nofun, sources⟩

mutual

/-- Every statement in a prepared expression is typed, if those are that the names stand for. -/
theorem Expr.typed_of_prepare (e : Expr) {scope : Scope} {f f' : Fresh}
    (hs : ∀ n ∈ scopeNodes scope, n.Typed) {e' : Sql.Expr}
    (h : e.prepare defaults scope f = .ok (e', f')) : (Node.expression e').Typed := by
  cases e with
  | constant value type =>
    obtain ⟨rfl, rfl⟩ := Supply.pure_eq_ok.mp h
    exact Built.typed (List.forall_mem_nil _) (.constant value type)
  | queryable itemType => exact (Supply.throw_ne_ok.mp h).elim
  | item name type =>
    obtain ⟨found, rfl⟩ := Expr.prepare_item_eq_ok h
    exact hs _ (mem_scopeNodes found)
  | member source name type =>
    obtain ⟨source', prepared, member⟩ := Expr.prepare_member_eq_ok h
    have owner := source.typed_of_prepare hs prepared
    exact Built.typed (List.forall_mem_singleton.mpr owner) (built_preparedMember member)
  | binary op left right type =>
    obtain ⟨left', f₁, right', hl, hr, rfl⟩ := Expr.prepare_binary_eq_ok h
    have operands : ∀ n ∈ [Node.expression left', Node.expression right'], n.Typed := by
      simp [left.typed_of_prepare hs hl, right.typed_of_prepare hs hr]
    exact Built.typed operands (op.built_prepared (.part (by simp)) (.part (by simp)))
  | not operand =>
    obtain ⟨operand', prepared, rfl⟩ := Expr.prepare_not_eq_ok h
    have operand := operand.typed_of_prepare hs prepared
    exact Built.typed (List.forall_mem_singleton.mpr operand)
      (.plain rfl rfl (List.forall_mem_singleton.mpr (.part List.mem_cons_self)))
  | conditional test ifTrue ifFalse type =>
    obtain ⟨test', f₁, ifTrue', f₂, ifFalse', ht, hi, he, rfl⟩ :=
      Expr.prepare_conditional_eq_ok h
    have operands : ∀ n ∈ [Node.expression test', Node.expression ifTrue',
        Node.expression ifFalse'], n.Typed := by
      simp [test.typed_of_prepare hs ht, ifTrue.typed_of_prepare hs hi,
        ifFalse.typed_of_prepare hs he]
    exact Built.typed operands (.plain rfl rfl (by simp [Sql.Expr.slots, Sql.Made.part]))
  | call object declaringType method parameterTypes arguments type =>
    obtain ⟨object', f₁, arguments', ho, ha, transformed⟩ := Expr.prepare_call_eq_ok h
    have before := prepareObject_typed object hs ho
    have after := prepareArguments_typed arguments hs ha
    refine Built.typed ?_ (transform_builds _ _ transformed)
    rw [Method.Transformer.operands, List.map_append]
    exact List.forall_mem_append.mpr ⟨before, after⟩
  | record members =>
    obtain ⟨members', prepared, rfl⟩ := Expr.prepare_record_eq_ok h
    refine Built.typed (prepareMembers_typed members hs prepared) (.plain rfl rfl ?_)
    exact List.forall_mem_map.mpr fun n hn => .part (List.mem_map_of_mem hn)
  | subQuery model =>
    obtain ⟨s, prepared, rfl⟩ := Expr.prepare_subQuery_eq_ok h
    have inner := (model.drafted_of_prepareIn hs prepared).whole
    exact .intro (by simp [Node.IsTyped, Sql.Expr.kind]) (List.forall_mem_singleton.mpr inner)

theorem prepareObject_typed (object : Option Expr) {scope : Scope} {f f' : Fresh}
    (hs : ∀ n ∈ scopeNodes scope, n.Typed)
    {object' : Option Sql.Expr} (h : prepareObject defaults scope object f = .ok (object', f')) :
    ∀ n ∈ object'.toList.map Node.expression, n.Typed := by
  cases object with
  | none =>
    obtain ⟨rfl, rfl⟩ := Supply.pure_eq_ok.mp h
    exact List.forall_mem_nil _
  | some object =>
    obtain ⟨prepared, ho, rfl⟩ := prepareObject_some_eq_ok h
    exact List.forall_mem_singleton.mpr (object.typed_of_prepare hs ho)

theorem prepareArguments_typed (arguments : List Expr) {scope : Scope} {f f' : Fresh}
    (hs : ∀ n ∈ scopeNodes scope, n.Typed)
    {arguments' : List Sql.Expr}
    (h : prepareArguments defaults scope arguments f = .ok (arguments', f')) :
    ∀ n ∈ arguments'.map Node.expression, n.Typed := by
  cases arguments with
  | nil =>
    obtain ⟨rfl, rfl⟩ := Supply.pure_eq_ok.mp h
    exact List.forall_mem_nil _
  | cons argument rest =>
    obtain ⟨argument', f₁, rest', ha, hr, rfl⟩ := prepareArguments_cons_eq_ok h
    exact List.forall_mem_cons.mpr
      ⟨argument.typed_of_prepare hs ha, prepareArguments_typed rest hs hr⟩

theorem prepareMembers_typed (members : List (String × Expr)) {scope : Scope} {f f' : Fresh}
    (hs : ∀ n ∈ scopeNodes scope, n.Typed) {members' : List Sql.Named}
    (h : prepareMembers defaults scope members f = .ok (members', f')) :
    ∀ n ∈ members'.map fun n => Node.expression n.expression, n.Typed := by
  cases members with
  | nil =>
    obtain ⟨rfl, rfl⟩ := Supply.pure_eq_ok.mp h
    exact List.forall_mem_nil _
  | cons member rest =>
    obtain ⟨name, member⟩ := member
    obtain ⟨member', f₁, rest', hm, hr, rfl⟩ := prepareMembers_cons_eq_ok h
    exact List.forall_mem_cons.mpr
      ⟨member.typed_of_prepare hs hm, prepareMembers_typed rest hs hr⟩

theorem prepareOrderings_typed (orderings : List Ordering) {scope : Scope} {f f' : Fresh}
    (hs : ∀ n ∈ scopeNodes scope, n.Typed) {orderings' : List Sql.Ordering}
    (h : prepareOrderings defaults scope orderings f = .ok (orderings', f')) :
    ∀ o ∈ orderings', (Node.expression o.expression).Typed := by
  cases orderings with
  | nil =>
    obtain ⟨rfl, rfl⟩ := Supply.pure_eq_ok.mp h
    exact List.forall_mem_nil _
  | cons ordering rest =>
    obtain ⟨e, direction⟩ := ordering
    obtain ⟨e', f₁, rest', he, hr, rfl⟩ := prepareOrderings_cons_eq_ok h
    exact List.forall_mem_cons.mpr
      ⟨e.typed_of_prepare hs he, prepareOrderings_typed rest hs hr⟩

theorem prepareRows_typed (e : Expr) {scope : Scope} {f f' : Fresh}
    (hs : ∀ n ∈ scopeNodes scope, n.Typed) {itemName : String}
    {rows : Sql.Source} (h : prepareRows defaults scope itemName e f = .ok (rows, f')) :
    ∀ s, rows.statement? = some s → (Node.statement s).Typed := by
  cases e with
  | queryable itemType =>
    obtain ⟨rfl, rfl⟩ := Supply.pure_eq_ok.mp h
    exact nofun
  | subQuery model =>
    obtain ⟨s, f₁, tableAlias, prepared, -, rfl⟩ := prepareRows_subQuery_eq_ok h
    intro t same
    rw [← Option.some.inj same]
    exact (model.drafted_of_prepareIn hs prepared).source
  | _ => exact (Supply.throw_ne_ok.mp h).elim

theorem Source.typed_of_prepare (source : Source) {scope scope' : Scope} {body body' : Body}
    {f f' : Fresh} (hs : ∀ n ∈ scopeNodes scope, n.Typed)
    (hb : ∀ n ∈ body.nodes, n.Typed)
    (h : source.prepare defaults scope body f = .ok ((scope', body'), f')) :
    (∀ n ∈ scopeNodes scope', n.Typed) ∧ ∀ n ∈ body'.nodes, n.Typed := by
  obtain ⟨itemName, itemType, source⟩ := source
  obtain ⟨key, f₁, rows, -, prepared, rfl, rfl⟩ := Source.prepare_eq_ok h
  have inner := prepareRows_typed source hs prepared
  obtain ⟨condition, orderings, sources⟩ := Body.forall_nodes.mp hb
  refine ⟨List.forall_mem_cons.mpr ⟨Sql.Statement.Drafted.tableReference key _, hs⟩,
    Body.forall_nodes.mpr ⟨condition, orderings, ?_⟩⟩
  rw [Sql.Arranged.sourceStatements_snoc]
  exact List.forall_mem_append.mpr ⟨sources, fun t ht => inner t (Option.mem_toList.mp ht)⟩

theorem Clause.typed_of_prepare (clause : Clause) {scope scope' : Scope} {body body' : Body}
    {f f' : Fresh} (hs : ∀ n ∈ scopeNodes scope, n.Typed)
    (hb : ∀ n ∈ body.nodes, n.Typed)
    (h : clause.prepare defaults scope body f = .ok ((scope', body'), f')) :
    (∀ n ∈ scopeNodes scope', n.Typed) ∧ ∀ n ∈ body'.nodes, n.Typed := by
  obtain ⟨condition, existing, sources⟩ := Body.forall_nodes.mp hb
  cases clause with
  | source source => exact source.typed_of_prepare hs hb h
  | filter predicate =>
    obtain ⟨added, prepared, rfl, rfl⟩ := Clause.prepare_filter_eq_ok h
    refine ⟨hs, Body.forall_nodes.mpr ⟨fun e same => ?_, existing, sources⟩⟩
    rw [← Option.some.inj same]
    exact Sql.Statement.Drafted.conjoined condition (predicate.typed_of_prepare hs prepared)
  | orderBy orderings =>
    obtain ⟨added, prepared, rfl, rfl⟩ := Clause.prepare_orderBy_eq_ok h
    have first := prepareOrderings_typed orderings hs prepared
    exact ⟨hs, Body.forall_nodes.mpr
      ⟨condition, List.forall_mem_append.mpr ⟨first, existing⟩, sources⟩⟩
  | bind name e =>
    obtain ⟨e', prepared, rfl, rfl⟩ := Clause.prepare_bind_eq_ok h
    exact ⟨List.forall_mem_cons.mpr ⟨e.typed_of_prepare hs prepared, hs⟩, hb⟩
  | keyJoin => exact (Supply.throw_ne_ok.mp h).elim
  | groupJoin => exact (Supply.throw_ne_ok.mp h).elim

theorem prepareClauses_typed (clauses : List Clause) {scope scope' : Scope} {body body' : Body}
    {f f' : Fresh} (hs : ∀ n ∈ scopeNodes scope, n.Typed)
    (hb : ∀ n ∈ body.nodes, n.Typed)
    (h : prepareClauses defaults scope body clauses f = .ok ((scope', body'), f')) :
    (∀ n ∈ scopeNodes scope', n.Typed) ∧ ∀ n ∈ body'.nodes, n.Typed := by
  cases clauses with
  | nil =>
    obtain ⟨same, rfl⟩ := Supply.pure_eq_ok.mp h
    obtain ⟨rfl, rfl⟩ := Prod.mk.inj same
    exact ⟨hs, hb⟩
  | cons clause rest =>
    obtain ⟨⟨scope₁, body₁⟩, f₁, first, others⟩ := Supply.bind_eq_ok.mp h
    obtain ⟨hs₁, hb₁⟩ := clause.typed_of_prepare hs hb first
    exact prepareClauses_typed rest hs₁ hb₁ others

theorem Yield.drafted_of_prepare (y : Yield) {scope : Scope} {body : Body} {f f' : Fresh}
    (hs : ∀ n ∈ scopeNodes scope, n.Typed)
    (hb : ∀ n ∈ body.nodes, n.Typed) {s : Sql.Statement}
    (h : y.prepare defaults scope body f = .ok (s, f')) : s.Drafted := by
  cases y with
  | select selector =>
    obtain ⟨projection, prepared, rfl⟩ := Yield.prepare_select_eq_ok h
    exact Body.drafted_statement hb (selector.typed_of_prepare hs prepared) nofun
  | group key element =>
    obtain ⟨projection, prepared, rfl⟩ := Yield.prepare_group_eq_ok h
    have selected := key.typed_of_prepare hs prepared
    exact Body.drafted_statement hb selected fun e same => Option.some.inj same ▸ selected

theorem Operator.drafted_of_prepare (operator : Operator) {scope : Scope} {f f' : Fresh}
    (hs : ∀ n ∈ scopeNodes scope, n.Typed)
    {s t : Sql.Statement} (hd : s.Drafted)
    (h : operator.prepare defaults scope s f = .ok (t, f')) : t.Drafted := by
  cases operator with
  | take count =>
    obtain ⟨count', f₁, prepared, taken⟩ := Supply.bind_eq_ok.mp h
    exact hd.take (count.typed_of_prepare hs prepared) taken
  | skip offset =>
    obtain ⟨offset', f₁, prepared, skipped⟩ := Supply.bind_eq_ok.mp h
    exact hd.skip (offset.typed_of_prepare hs prepared) skipped
  | count | longCount | min | max | sum | average => exact hd.aggregate h
  | first orDefault | single orDefault => exact hd.singleRow h
  | distinct => exact hd.distinct h
  | other name => exact (Supply.throw_ne_ok.mp h).elim

theorem prepareOperators_drafted (operators : List Operator) {scope : Scope} {f f' : Fresh}
    (hs : ∀ n ∈ scopeNodes scope, n.Typed) {s t : Sql.Statement} (hd : s.Drafted)
    (h : prepareOperators defaults scope s operators f = .ok (t, f')) : t.Drafted := by
  cases operators with
  | nil =>
    obtain ⟨rfl, rfl⟩ := Supply.pure_eq_ok.mp h
    exact hd
  | cons operator rest =>
    obtain ⟨u, f₁, first, others⟩ := prepareOperators_cons_eq_ok h
    exact prepareOperators_drafted rest hs (operator.drafted_of_prepare hs hd first) others

/-- A query is prepared to a typed statement, in which all statements are typed. -/
theorem Model.drafted_of_prepareIn (m : Model) {scope : Scope} {f f' : Fresh}
    (hs : ∀ n ∈ scopeNodes scope, n.Typed)
    {s : Sql.Statement} (h : m.prepareIn defaults scope f = .ok (s, f')) : s.Drafted := by
  obtain ⟨main, clauses, yield, operators⟩ := m
  obtain ⟨scope₁, body₁, f₁, scope₂, body₂, f₂, t, f₃, hm, hc, hy, ho⟩ :=
    Model.prepareIn_mk_eq_ok h
  obtain ⟨hs₁, hb₁⟩ := main.typed_of_prepare hs (List.forall_mem_nil _) hm
  obtain ⟨hs₂, hb₂⟩ := prepareClauses_typed clauses hs₁ hb₁ hc
  exact prepareOperators_drafted operators hs₂ (yield.drafted_of_prepare hs₂ hb₂ hy) ho

end

end Comprehension.Query
