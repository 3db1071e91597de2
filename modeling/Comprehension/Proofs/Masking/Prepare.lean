import Comprehension.Prepared.Query
import Comprehension.Proofs.Masking.Methods
import Comprehension.Proofs.Masking.Resolve

/-!
Preparation without a look at the values of constants. Patterns are escaped while a query is
prepared, so here two queries of the same mask give statements of the same mask, and not masked
statements.
-/
namespace Comprehension

open Supply (Masks freshAlias freshKey)

namespace Sql

theorem Expr.masked_withColumnName (e : Expr) :
    e.withColumnName.masked = e.masked.withColumnName := by
  cases e with
  | named n => simp [withColumnName]
  | _ => simp [withColumnName, masked, Named.masked]

theorem conjoined_masked (existing : Option Expr) (condition : Expr) :
    (conjoined existing condition).masked = conjoined (existing.map Expr.masked) condition.masked := by
  cases existing <;> simp [conjoined, Expr.and, Expr.masked]

namespace Statement

theorem masked_asSource (s : Statement) : s.asSource.masked = s.masked.asSource := by
  obtain ⟨projection, tables, condition, grouping, orderings, top, isDistinct, rowNumber, rowOffset,
    shape⟩ := s
  cases top <;> simp [asSource, masked, Expr.masked_withColumnName, optionMasked, orderingsMasked]

theorem masked_withCondition (s : Statement) (condition : Expr) :
    (s.withCondition condition).masked = s.masked.withCondition condition.masked := by
  cases s
  simp [withCondition, masked, optionMasked, conjoined_masked, optionMasked_eq]

@[simp] theorem limitsRows_masked (s : Statement) : s.masked.limitsRows = s.limitsRows := by
  simp [limitsRows]

theorem checked_masks (s : Statement) :
    Masks masked (liftM s.checked : Supply Statement) (liftM s.masked.checked) := by
  rw [checked_masked]
  exact .lift (.map _ _)

theorem nested_masks {s s' : Statement} (h : s' = s.masked) :
    Masks (Prod.map masked Expr.masked) s.nested s'.nested := by
  subst h
  refine .bind s.checked_masks ?_
  rintro inner _ rfl
  refine .bind (.refl (R := Eq) fun _ _ _ _ => rfl) ?_
  rintro key _ rfl
  refine .bind (.refl (R := Eq) fun _ _ _ _ => rfl) ?_
  rintro tableAlias _ rfl
  refine .pure ?_
  rw [← masked_asSource]
  simp [masked, tablesMasked, Table.ofSource, Source.masked, joinsMasked, Expr.masked,
    optionMasked, orderingsMasked]

theorem nestedIf_masks (condition : Bool) (s : Statement) :
    Masks masked (s.nestedIf condition) (s.masked.nestedIf condition) := by
  unfold nestedIf
  cases condition with
  | false => exact .pure rfl
  | true =>
    refine .bind (nested_masks rfl) ?_
    rintro ⟨outer, reference⟩ _ rfl
    exact .pure rfl

theorem aggregate_masks (function : Aggregate) (type? : Option ValueType) (s : Statement) :
    Masks masked (s.aggregate function type?) (s.masked.aggregate function type?) := by
  unfold aggregate
  rw [limitsRows_masked]
  refine .bind (s.nestedIf_masks _) ?_
  rintro s _ rfl
  refine .pure ?_
  cases s
  simp [masked, Expr.masked, orderingsMasked]

theorem take_masks (count : Expr) (s : Statement) :
    Masks masked (s.take count) (s.masked.take count.masked) := by
  unfold take
  simp only [rowNumber_masked, rowOffset_masked, top_masked, Option.isSome_map]
  have limited :
      Masks masked
        (do
          let s ← s.nestedIf s.top.isSome
          return { s with top := some count })
        (do
          let s ← s.masked.nestedIf s.top.isSome
          return { s with top := some count.masked }) := by
    refine .bind (s.nestedIf_masks _) ?_
    rintro s _ rfl
    refine .pure ?_
    cases s
    simp [masked, optionMasked]
  cases s.rowNumber with
  | none => exact limited
  | some rowNumber =>
    cases s.rowOffset with
    | none => exact limited
    | some offset =>
      refine .pure ?_
      simp [masked_withCondition, Expr.masked_binaryOf, Expr.add]

theorem numbered_masked (s : Statement) : s.masked.numbered = s.numbered.masked := by
  obtain ⟨projection, tables, condition, grouping, orderings, top, isDistinct, rowNumber,
    rowOffset, shape⟩ := s
  cases orderings with
  | nil => simp [numbered, numbering, masked, Expr.masked, membersMasked, orderingsMasked, Expr.int]
  | cons ordering rest =>
    cases ordering
    simp [numbered, numbering, masked, Expr.masked, membersMasked, orderingsMasked]

theorem skip_masks (offset : Expr) (s : Statement) :
    Masks masked (s.skip offset) (s.masked.skip offset.masked) := by
  unfold skip
  rw [limitsRows_masked]
  refine .bind (s.nestedIf_masks _) ?_
  rintro s _ rfl
  refine .bind (nested_masks s.numbered_masked) ?_
  rintro ⟨outer, reference⟩ _ rfl
  refine .pure ?_
  cases outer
  simp [masked, Expr.masked, withCondition, conjoined_masked, Expr.masked_binaryOf, optionMasked,
    orderingsMasked, optionMasked_eq]

theorem singleRow_masks (rows : Int) (orDefault : Bool) (s : Statement) :
    Masks masked (s.singleRow rows orDefault) (s.masked.singleRow rows orDefault) := by
  unfold singleRow
  simp only [top_masked, Option.isSome_map]
  refine .bind (s.nestedIf_masks _) ?_
  rintro s _ rfl
  refine .pure ?_
  cases s
  simp [masked, optionMasked, Expr.int, Expr.masked]

theorem distinct_masks (s : Statement) : Masks masked s.distinct s.masked.distinct := by
  unfold distinct
  simp only [top_masked, rowNumber_masked, Option.isSome_map]
  refine .bind (s.nestedIf_masks _) ?_
  rintro s _ rfl
  refine .pure ?_
  cases s
  rfl

end Statement

theorem Expr.type_eq_of_masked {e e' : Expr} (h : e.masked = e'.masked) : e.type = e'.type := by
  rw [← type_masked e, h, type_masked]

theorem Source.rowType_eq_of_masked {source source' : Source} (h : source.masked = source'.masked) :
    source.rowType = source'.rowType := by
  have rowType_masked (source : Source) : source.masked.rowType = source.rowType := by
    cases source <;> simp [masked, rowType]
  rw [← rowType_masked source, h, rowType_masked]

end Sql

namespace Query

open Method (Registry)
open Method.Registry (defaults)

def scopeMasked (scope : Scope) : Scope := scope.map fun (name, e) => (name, e.masked)

theorem lookup_scopeMasked (name : String) (scope : Scope) :
    (scopeMasked scope).lookup name = (scope.lookup name).map Sql.Expr.masked := by
  induction scope with
  | nil => rfl
  | cons entry rest ih =>
    obtain ⟨n, e⟩ := entry
    rw [scopeMasked, List.map_cons, List.lookup_cons, List.lookup_cons]
    split
    · rfl
    · exact ih

def Body.masked (body : Body) : Body :=
  ⟨Sql.tablesMasked body.tables, body.condition.map Sql.Expr.masked,
    Sql.orderingsMasked body.orderings⟩

theorem Body.masked_statement (body : Body) (projection : Sql.Expr) (grouping : Option Sql.Expr) :
    (body.statement projection grouping).masked =
      body.masked.statement projection.masked (grouping.map Sql.Expr.masked) := by
  simp [statement, masked, Sql.Statement.masked, Sql.optionMasked_eq]

theorem BinaryOp.masked_prepared (op : BinaryOp) (left right : Sql.Expr) (type : ValueType) :
    (op.prepared left right type).masked = op.prepared left.masked right.masked type := by
  cases op <;> simp only [prepared, Sql.Expr.masked_binaryOf, Sql.Expr.masked_valueFunction,
    Sql.Expr.masked, Sql.Expr.type_masked, List.map_cons, List.map_nil]
  split
  · exact Sql.Expr.masked_binaryOf _ _ _
  · rfl

theorem mappedMember_agree {source source' : Sql.Expr} (h : source.masked = source'.masked)
    (name : String) (type : ValueType) (text text' : String) :
    Outcome.Agree (fun a b => a.masked = b.masked) (mappedMember defaults source name type text)
      (mappedMember defaults source' name type text') := by
  unfold mappedMember
  rw [← Sql.Expr.type_eq_of_masked h]
  split
  case h_4 =>
    exact Registry.transform_blind ⟨rfl, by simp [h], rfl, rfl⟩ (by simp)
  all_goals exact .ok (by simp [Sql.Expr.masked, h])

theorem preparedMember_agree {source source' : Sql.Expr} (h : source.masked = source'.masked)
    (name : String) (type : ValueType) (text text' : String) :
    Outcome.Agree (fun a b => a.masked = b.masked) (preparedMember defaults source name type text)
      (preparedMember defaults source' name type text') := by
  unfold preparedMember
  rw [← Sql.Expr.type_eq_of_masked h]
  split
  · split
    · exact .ok h
    · split
      · exact .ok (by simp [Sql.Expr.masked_binaryOf, Sql.Expr.masked, h])
      · exact mappedMember_agree h name type text text'
  · exact mappedMember_agree h name type text text'

theorem Operator.name_masked (operator : Operator) : operator.masked.name = operator.name := by
  cases operator <;> simp [masked, name]

mutual

theorem Expr.prepare_agree (e : Expr) (free : e.languageFree = true) {scope scope' : Scope}
    (h : scopeMasked scope = scopeMasked scope') :
    Supply.Agree (fun a b => a.masked = b.masked) (e.prepare defaults scope)
      (e.masked.prepare defaults scope') := by
  cases e with
  | constant value type => exact .pure (by simp [Sql.Expr.masked])
  | queryable itemType => exact .throw _ _
  | item name type =>
    simp only [Expr.masked, Expr.prepare]
    have found : (scope.lookup name).map Sql.Expr.masked = (scope'.lookup name).map Sql.Expr.masked := by
      rw [← lookup_scopeMasked, h, lookup_scopeMasked]
    cases hs : scope.lookup name <;> cases hs' : scope'.lookup name <;> simp only [hs, hs',
      Option.map_none, Option.map_some, Option.some.injEq, reduceCtorEq] at found
    · exact .throw _ _
    · exact .pure found
  | member source name type =>
    simp only [Expr.languageFree] at free
    simp only [Expr.masked, Expr.prepare]
    refine .bind (source.prepare_agree free h) fun a b hab => ?_
    exact .lift (preparedMember_agree hab name type _ _)
  | binary op left right type =>
    simp only [Expr.languageFree, Bool.and_eq_true] at free
    simp only [Expr.masked, Expr.prepare]
    refine .bind (left.prepare_agree free.1 h) fun left left' hl => ?_
    refine .bind (right.prepare_agree free.2 h) fun right right' hr => .pure ?_
    rw [BinaryOp.masked_prepared, BinaryOp.masked_prepared, hl, hr]
  | not operand =>
    simp only [Expr.languageFree] at free
    simp only [Expr.masked, Expr.prepare]
    refine .bind (operand.prepare_agree free h) fun operand operand' ho => .pure ?_
    simp [Sql.Expr.masked, ho]
  | conditional test ifTrue ifFalse type =>
    simp only [Expr.languageFree, Bool.and_eq_true] at free
    simp only [Expr.masked, Expr.prepare]
    refine .bind (test.prepare_agree free.1.1 h) fun test test' ht => ?_
    refine .bind (ifTrue.prepare_agree free.1.2 h) fun ifTrue ifTrue' hi => ?_
    refine .bind (ifFalse.prepare_agree free.2 h) fun ifFalse ifFalse' he => .pure ?_
    simp [Sql.Expr.masked, Sql.branchesMasked, Sql.optionMasked, ht, hi, he]
  | call object declaringType method parameterTypes arguments type =>
    simp only [Expr.languageFree, Bool.and_eq_true, Bool.not_eq_true'] at free
    simp only [Expr.masked, Expr.prepare]
    refine .bind (prepareObject_agree object free.1.2 h) fun object object' ho => ?_
    refine .bind (prepareArguments_agree arguments free.2 h) fun prepared prepared' ha => ?_
    refine .lift (Registry.transform_blind ⟨rfl, ho, ha.1, rfl⟩ fun fullText => ?_)
    have short := free.1.1
    simp only [Method.Signature.ofCall] at fullText
    simp only [namesLanguage, fullText, true_and, decide_eq_false_iff_not, Nat.not_lt] at short
    exact ha.2 ▸ short
  | record members =>
    simp only [Expr.languageFree] at free
    simp only [Expr.masked, Expr.prepare]
    refine .bind (prepareMembers_agree members free h) fun members members' hm => .pure ?_
    simp [Sql.Expr.masked, hm]
  | subQuery model =>
    simp only [Expr.languageFree] at free
    simp only [Expr.masked, Expr.prepare]
    refine .bind (model.prepareIn_agree free h) fun s s' hs => .pure ?_
    simp [Sql.Expr.masked, hs]

theorem prepareObject_agree (object : Option Expr) (free : objectLanguageFree object = true)
    {scope scope' : Scope} (h : scopeMasked scope = scopeMasked scope') :
    Supply.Agree (fun a b => a.map Sql.Expr.masked = b.map Sql.Expr.masked)
      (prepareObject defaults scope object) (prepareObject defaults scope' (objectMasked object)) := by
  cases object with
  | none => exact .pure rfl
  | some object =>
    simp only [objectLanguageFree] at free
    simp only [objectMasked, prepareObject]
    refine .bind (object.prepare_agree free h) fun object object' ho => .pure ?_
    simp [ho]

theorem prepareArguments_agree (arguments : List Expr)
    (free : argumentsLanguageFree arguments = true) {scope scope' : Scope}
    (h : scopeMasked scope = scopeMasked scope') :
    Supply.Agree
      (fun a b => a.map Sql.Expr.masked = b.map Sql.Expr.masked ∧ a.length = arguments.length)
      (prepareArguments defaults scope arguments)
      (prepareArguments defaults scope' (argumentsMasked arguments)) := by
  cases arguments with
  | nil => exact .pure ⟨rfl, rfl⟩
  | cons argument rest =>
    simp only [argumentsLanguageFree, Bool.and_eq_true] at free
    simp only [argumentsMasked, prepareArguments]
    refine .bind (argument.prepare_agree free.1 h) fun argument argument' ha => ?_
    refine .bind (prepareArguments_agree rest free.2 h) fun rest rest' hr => .pure ?_
    simp [ha, hr]

theorem prepareMembers_agree (members : List (String × Expr))
    (free : membersLanguageFree members = true) {scope scope' : Scope}
    (h : scopeMasked scope = scopeMasked scope') :
    Supply.Agree (fun a b => Sql.membersMasked a = Sql.membersMasked b)
      (prepareMembers defaults scope members)
      (prepareMembers defaults scope' (membersMasked members)) := by
  cases members with
  | nil => exact .pure rfl
  | cons member rest =>
    obtain ⟨name, member⟩ := member
    simp only [membersLanguageFree, Bool.and_eq_true] at free
    simp only [membersMasked, prepareMembers]
    refine .bind (member.prepare_agree free.1 h) fun member member' hm => ?_
    refine .bind (prepareMembers_agree rest free.2 h) fun rest rest' hr => .pure ?_
    simp [Sql.membersMasked, hm, hr]

theorem prepareOrderings_agree (orderings : List Ordering)
    (free : orderingsLanguageFree orderings = true) {scope scope' : Scope}
    (h : scopeMasked scope = scopeMasked scope') :
    Supply.Agree (fun a b => Sql.orderingsMasked a = Sql.orderingsMasked b)
      (prepareOrderings defaults scope orderings)
      (prepareOrderings defaults scope' (orderingsMasked orderings)) := by
  cases orderings with
  | nil => exact .pure rfl
  | cons ordering rest =>
    obtain ⟨e, direction⟩ := ordering
    simp only [orderingsLanguageFree, Bool.and_eq_true] at free
    simp only [orderingsMasked, prepareOrderings]
    refine .bind (e.prepare_agree free.1 h) fun e e' he => ?_
    refine .bind (prepareOrderings_agree rest free.2 h) fun rest rest' hr => .pure ?_
    simp [Sql.orderingsMasked, he, hr]

theorem prepareRows_agree (e : Expr) (free : e.languageFree = true) {scope scope' : Scope}
    (h : scopeMasked scope = scopeMasked scope') (itemName : String) :
    Supply.Agree (fun a b => a.masked = b.masked) (prepareRows defaults scope itemName e)
      (prepareRows defaults scope' itemName e.masked) := by
  cases e with
  | queryable itemType => exact .pure rfl
  | subQuery model =>
    simp only [Expr.languageFree] at free
    simp only [Expr.masked, prepareRows]
    refine .bind (model.prepareIn_agree free h) fun s s' hs => ?_
    refine .bind (.refl (R := Eq) fun _ _ _ _ => rfl) ?_
    rintro tableAlias _ rfl
    refine .pure ?_
    simp [Sql.Source.masked, Sql.Statement.masked_asSource, hs]
  | _ =>
    simp only [Expr.masked, prepareRows]
    exact .throw _ _

theorem Source.prepare_agree (source : Source) (free : source.languageFree = true)
    {scope scope' : Scope} (h : scopeMasked scope = scopeMasked scope') {body body' : Body}
    (hb : body.masked = body'.masked) :
    Supply.Agree (fun a b => scopeMasked a.1 = scopeMasked b.1 ∧ a.2.masked = b.2.masked)
      (source.prepare defaults scope body) (source.masked.prepare defaults scope' body') := by
  obtain ⟨itemName, itemType, source⟩ := source
  simp only [Source.languageFree] at free
  simp only [Source.masked, Source.prepare]
  refine .bind (.refl (R := Eq) fun _ _ _ _ => rfl) ?_
  rintro key _ rfl
  refine .bind (prepareRows_agree source free h itemName) fun rows rows' hr => .pure ⟨?_, ?_⟩
  · simp only [scopeMasked, List.map_cons, Sql.Expr.masked, Sql.Source.rowType_eq_of_masked hr]
    exact congrArg _ h
  · simp only [Body.masked, Body.mk.injEq] at hb ⊢
    simp [Sql.tablesMasked_eq, Sql.Table.ofSource, Sql.Table.masked, hr] at hb ⊢
    exact hb

theorem Clause.prepare_agree (clause : Clause) (free : clause.languageFree = true)
    {scope scope' : Scope} (h : scopeMasked scope = scopeMasked scope') {body body' : Body}
    (hb : body.masked = body'.masked) :
    Supply.Agree (fun a b => scopeMasked a.1 = scopeMasked b.1 ∧ a.2.masked = b.2.masked)
      (clause.prepare defaults scope body) (clause.masked.prepare defaults scope' body') := by
  cases clause with
  | source source =>
    simp only [Clause.languageFree] at free
    exact source.prepare_agree free h hb
  | filter predicate =>
    simp only [Clause.languageFree] at free
    simp only [Clause.masked, Clause.prepare]
    refine .bind (predicate.prepare_agree free h) fun condition condition' hc => .pure ⟨h, ?_⟩
    simp only [Body.masked, Body.mk.injEq] at hb ⊢
    simp [Sql.conjoined_masked, hb, hc]
  | orderBy orderings =>
    simp only [Clause.languageFree] at free
    simp only [Clause.masked, Clause.prepare]
    refine .bind (prepareOrderings_agree orderings free h) fun prepared prepared' hp => .pure ⟨h, ?_⟩
    simp only [Body.masked, Body.mk.injEq] at hb ⊢
    simp [Sql.orderingsMasked_append, hb, hp]
  | bind name e =>
    simp only [Clause.languageFree] at free
    simp only [Clause.masked, Clause.prepare]
    refine .bind (e.prepare_agree free h) fun e e' he => .pure ⟨?_, hb⟩
    simp only [scopeMasked, List.map_cons, he]
    exact congrArg _ h
  | keyJoin => exact .throw _ _
  | groupJoin => exact .throw _ _

theorem prepareClauses_agree (clauses : List Clause) (free : clausesLanguageFree clauses = true)
    {scope scope' : Scope} (h : scopeMasked scope = scopeMasked scope') {body body' : Body}
    (hb : body.masked = body'.masked) :
    Supply.Agree (fun a b => scopeMasked a.1 = scopeMasked b.1 ∧ a.2.masked = b.2.masked)
      (prepareClauses defaults scope body clauses)
      (prepareClauses defaults scope' body' (clausesMasked clauses)) := by
  cases clauses with
  | nil => exact .pure ⟨h, hb⟩
  | cons clause rest =>
    simp only [clausesLanguageFree, Bool.and_eq_true] at free
    simp only [clausesMasked, prepareClauses]
    refine .bind (clause.prepare_agree free.1 h hb) fun a b hab => ?_
    exact prepareClauses_agree rest free.2 hab.1 hab.2

theorem Yield.prepare_agree (y : Yield) (free : y.languageFree = true)
    {scope scope' : Scope} (h : scopeMasked scope = scopeMasked scope') {body body' : Body}
    (hb : body.masked = body'.masked) :
    Supply.Agree (fun a b => a.masked = b.masked) (y.prepare defaults scope body)
      (y.masked.prepare defaults scope' body') := by
  cases y with
  | select selector =>
    simp only [Yield.languageFree] at free
    simp only [Yield.masked, Yield.prepare]
    refine .bind (selector.prepare_agree free h) fun projection projection' hp => .pure ?_
    simp [Body.masked_statement, hb, hp]
  | group key element =>
    simp only [Yield.languageFree, Bool.and_eq_true] at free
    simp only [Yield.masked, Yield.prepare]
    refine .bind (key.prepare_agree free.1 h) fun projection projection' hp => .pure ?_
    simp [Body.masked_statement, hb, hp]

theorem Operator.prepare_agree (operator : Operator) (free : operator.languageFree = true)
    {scope scope' : Scope} (h : scopeMasked scope = scopeMasked scope') {s s' : Sql.Statement}
    (hs : s.masked = s'.masked) :
    Supply.Agree (fun a b => a.masked = b.masked) (operator.prepare defaults scope s)
      (operator.masked.prepare defaults scope' s') := by
  cases operator with
  | take count =>
    simp only [Operator.languageFree] at free
    simp only [Operator.masked, Operator.prepare]
    refine .bind (count.prepare_agree free h) fun count count' hc => ?_
    have pair : Prod.map Sql.Expr.masked Sql.Statement.masked (count, s) =
        Prod.map Sql.Expr.masked Sql.Statement.masked (count', s') := by simp [hc, hs]
    exact Masks.agree (x := fun p => p.2.take p.1) (fun p => p.2.take_masks p.1) pair
  | skip offset =>
    simp only [Operator.languageFree] at free
    simp only [Operator.masked, Operator.prepare]
    refine .bind (offset.prepare_agree free h) fun offset offset' ho => ?_
    have pair : Prod.map Sql.Expr.masked Sql.Statement.masked (offset, s) =
        Prod.map Sql.Expr.masked Sql.Statement.masked (offset', s') := by simp [ho, hs]
    exact Masks.agree (x := fun p => p.2.skip p.1) (fun p => p.2.skip_masks p.1) pair
  | count => exact Masks.agree (Sql.Statement.aggregate_masks .count _) hs
  | longCount => exact Masks.agree (Sql.Statement.aggregate_masks .count _) hs
  | min => exact Masks.agree (Sql.Statement.aggregate_masks .min _) hs
  | max => exact Masks.agree (Sql.Statement.aggregate_masks .max _) hs
  | sum => exact Masks.agree (Sql.Statement.aggregate_masks .sum _) hs
  | average => exact Masks.agree (Sql.Statement.aggregate_masks .average _) hs
  | first orDefault => exact Masks.agree (Sql.Statement.singleRow_masks 1 orDefault) hs
  | single orDefault => exact Masks.agree (Sql.Statement.singleRow_masks 2 orDefault) hs
  | distinct => exact Masks.agree Sql.Statement.distinct_masks hs
  | other name => exact .throw _ _

theorem prepareOperators_agree (operators : List Operator)
    (free : operatorsLanguageFree operators = true) {scope scope' : Scope}
    (h : scopeMasked scope = scopeMasked scope') {s s' : Sql.Statement}
    (hs : s.masked = s'.masked) :
    Supply.Agree (fun a b => a.masked = b.masked) (prepareOperators defaults scope s operators)
      (prepareOperators defaults scope' s' (operatorsMasked operators)) := by
  cases operators with
  | nil => exact .pure hs
  | cons operator rest =>
    simp only [operatorsLanguageFree, Bool.and_eq_true] at free
    simp only [operatorsMasked, prepareOperators, Operator.name_masked, Sql.Statement.requireSequence]
    have shape : s.shape = s'.shape := by
      rw [← Sql.Statement.shape_masked s, hs, Sql.Statement.shape_masked]
    rw [shape]
    refine .bind (.refl (R := Eq) fun _ _ _ _ => rfl) fun _ _ _ => ?_
    refine .bind (operator.prepare_agree free.1 h hs) fun s s' hs => ?_
    exact prepareOperators_agree rest free.2 h hs

/-- A query and its mask are prepared to statements of the same mask. -/
theorem Model.prepareIn_agree (m : Model) (free : m.languageFree = true) {scope scope' : Scope}
    (h : scopeMasked scope = scopeMasked scope') :
    Supply.Agree (fun a b => a.masked = b.masked) (m.prepareIn defaults scope)
      (m.masked.prepareIn defaults scope') := by
  obtain ⟨main, clauses, yield, operators⟩ := m
  simp only [Model.languageFree, Bool.and_eq_true] at free
  obtain ⟨⟨⟨hm, hc⟩, hy⟩, ho⟩ := free
  simp only [Model.masked, Model.prepareIn]
  refine .bind (main.prepare_agree hm h rfl) fun a b hab => ?_
  refine .bind (prepareClauses_agree clauses hc hab.1 hab.2) fun a b hab => ?_
  refine .bind (yield.prepare_agree hy hab.1 hab.2) fun s s' hs => ?_
  refine .bind (prepareOperators_agree operators ho hab.1 hs) fun s s' hs => ?_
  exact Masks.agree Sql.Statement.checked_masks hs

end

/-- Queries of the same mask are prepared to statements of the same mask, or neither is. -/
theorem Model.prepare_agree {m m' : Model} (h : m.masked = m'.masked)
    (free : m.languageFree = true) (free' : m'.languageFree = true) :
    Supply.Agree (fun a b => a.masked = b.masked) (m.prepare defaults) (m'.prepare defaults) := by
  intro f
  have noNames : scopeMasked [] = scopeMasked [] := rfl
  have left := m.prepareIn_agree free noNames f
  have right := m'.prepareIn_agree free' noNames f
  refine (left.trans (h ▸ right.symm)).mono ?_
  rintro ⟨a, f₁⟩ ⟨b, f₂⟩ ⟨⟨c, f₃⟩, ⟨hac, rfl⟩, hbc, rfl⟩
  exact ⟨hac.trans hbc.symm, rfl⟩

end Query

end Comprehension
