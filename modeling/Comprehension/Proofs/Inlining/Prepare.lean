import Comprehension.Proofs.Inlining.Query
import Comprehension.Proofs.Renaming.Prepare

/-!
Lets are transparent. A let keeps what its expression has been prepared to, and a query with the let
written out prepares the expression again at each reference; as long as the names of the expression
still mean the same there, both come to the same statement.
-/
namespace Comprehension

namespace Supply

variable {α β : Type}

/-- Two computations that hand out no names and end the same. -/
def Coincide (x y : Supply α) : Prop :=
  ∃ outcome : Except Error α, x = liftM outcome ∧ y = liftM outcome

namespace Coincide

protected theorem lift (outcome : Except Error α) :
    Coincide (liftM outcome : Supply α) (liftM outcome) :=
  ⟨outcome, rfl, rfl⟩

protected theorem pure (a : α) : Coincide (Pure.pure a : Supply α) (Pure.pure a) := .lift (.ok a)

protected theorem throw (e : Error) : Coincide (throw e : Supply α) (throw e) := .lift (.error e)

protected theorem bind {x y : Supply α} {k l : α → Supply β} (hx : Coincide x y)
    (hk : ∀ a, Coincide (k a) (l a)) : Coincide (x >>= k) (y >>= l) := by
  obtain ⟨outcome, rfl, rfl⟩ := hx
  cases outcome with
  | ok a => exact hk a
  | error e => exact .throw e

/-- What one of them yields once, the other one yields always. -/
theorem eq_pure {x y : Supply α} (h : Coincide x y) {a : α} {f f' : Fresh}
    (result : x f = .ok (a, f')) : y = Pure.pure a := by
  obtain ⟨outcome, rfl, rfl⟩ := h
  obtain ⟨rfl, -⟩ := lift_eq_ok.mp result
  rfl

end Coincide

/-- Results and handed-out names that are the same are the same pair. -/
theorem Parallel.outcome {E : Error → Error → Prop} {x y : Supply α} (h : Parallel E Eq x y)
    (f : Fresh) : Outcome.Parallel E Eq (x f) (y f) := by
  have result := h f
  generalize x f = a, y f = b at result
  cases result with
  | ok same => exact .ok (Prod.ext same.1 same.2)
  | error akin => exact .error akin

end Supply

namespace Query

open Error (Akin)
open Method (Registry)
open Method.Registry (defaults transform_akin)
open Supply (Coincide Parallel)

section Queryless

variable {registry : Registry} {scope scope' : Scope}

mutual

/-- An expression without queries depends on what its own names stand for, and on nothing else. -/
theorem Expr.prepare_queryless (e : Expr) (queryless : e.queryless = true)
    (same : ∀ name ∈ e.itemNames, scope'.lookup name = scope.lookup name) :
    Coincide (e.prepare registry scope) (e.prepare registry scope') := by
  cases e with
  | constant value type => exact .pure _
  | queryable itemType => exact .throw _
  | item name type =>
    rw [Expr.prepare, Expr.prepare, same name List.mem_cons_self]
    cases scope.lookup name with
    | none => exact .throw _
    | some p => exact .pure p
  | member source name type =>
    simp only [Expr.prepare]
    exact .bind (source.prepare_queryless queryless same) fun _ => .lift _
  | binary op left right type =>
    obtain ⟨hl, hr⟩ := (Bool.and_eq_true _ _).mp queryless
    obtain ⟨sameLeft, sameRight⟩ := List.forall_mem_append.mp same
    simp only [Expr.prepare]
    refine .bind (left.prepare_queryless hl sameLeft) fun _ => ?_
    exact .bind (right.prepare_queryless hr sameRight) fun _ => .pure _
  | not operand =>
    simp only [Expr.prepare]
    exact .bind (operand.prepare_queryless queryless same) fun _ => .pure _
  | conditional test ifTrue ifFalse type =>
    obtain ⟨ht, branches⟩ := (Bool.and_eq_true _ _).mp queryless
    obtain ⟨hi, he⟩ := (Bool.and_eq_true _ _).mp branches
    obtain ⟨sameTest, sameBranches⟩ := List.forall_mem_append.mp same
    obtain ⟨sameTrue, sameFalse⟩ := List.forall_mem_append.mp sameBranches
    simp only [Expr.prepare]
    refine .bind (test.prepare_queryless ht sameTest) fun _ => ?_
    refine .bind (ifTrue.prepare_queryless hi sameTrue) fun _ => ?_
    exact .bind (ifFalse.prepare_queryless he sameFalse) fun _ => .pure _
  | call object declaringType method parameterTypes arguments type =>
    obtain ⟨ho, ha⟩ := (Bool.and_eq_true _ _).mp queryless
    obtain ⟨sameObject, sameArguments⟩ := List.forall_mem_append.mp same
    simp only [Expr.prepare]
    refine .bind (prepareObject_queryless object ho sameObject) fun _ => ?_
    exact .bind (prepareArguments_queryless arguments ha sameArguments) fun _ => .lift _
  | record members =>
    simp only [Expr.prepare]
    exact .bind (prepareMembers_queryless members queryless same) fun _ => .pure _
  | subQuery model => cases queryless

theorem prepareObject_queryless (object : Option Expr) (queryless : objectQueryless object = true)
    (same : ∀ name ∈ objectNames object, scope'.lookup name = scope.lookup name) :
    Coincide (prepareObject registry scope object) (prepareObject registry scope' object) := by
  cases object with
  | none => exact .pure none
  | some object =>
    simp only [prepareObject]
    exact .bind (object.prepare_queryless queryless same) fun _ => .pure _

theorem prepareArguments_queryless (arguments : List Expr)
    (queryless : argumentsQueryless arguments = true)
    (same : ∀ name ∈ argumentsNames arguments, scope'.lookup name = scope.lookup name) :
    Coincide (prepareArguments registry scope arguments)
      (prepareArguments registry scope' arguments) := by
  cases arguments with
  | nil => exact .pure []
  | cons argument rest =>
    obtain ⟨ha, hr⟩ := (Bool.and_eq_true _ _).mp queryless
    obtain ⟨sameArgument, sameRest⟩ := List.forall_mem_append.mp same
    simp only [prepareArguments]
    refine .bind (argument.prepare_queryless ha sameArgument) fun _ => ?_
    exact .bind (prepareArguments_queryless rest hr sameRest) fun _ => .pure _

theorem prepareMembers_queryless (members : List (String × Expr))
    (queryless : membersQueryless members = true)
    (same : ∀ name ∈ membersNames members, scope'.lookup name = scope.lookup name) :
    Coincide (prepareMembers registry scope members) (prepareMembers registry scope' members) := by
  cases members with
  | nil => exact .pure []
  | cons member rest =>
    obtain ⟨name, e⟩ := member
    obtain ⟨he, hr⟩ := (Bool.and_eq_true _ _).mp queryless
    obtain ⟨sameMember, sameRest⟩ := List.forall_mem_append.mp same
    simp only [prepareMembers]
    refine .bind (e.prepare_queryless he sameMember) fun _ => ?_
    exact .bind (prepareMembers_queryless rest hr sameRest) fun _ => .pure _

end

end Queryless

/-- Two scopes, one with what the bindings have been prepared to and one in which they are prepared
when they are referred to. The names of the bindings are all among some names. -/
structure Inlined (N : Set String) (bindings : Bindings) (scope scope' : Scope) : Prop where
  others : ∀ name, bindings name = none → scope'.lookup name = scope.lookup name
  bound : ∀ name e, bindings name = some e → e.queryless = true ∧ (∀ n ∈ e.itemNames, n ∈ N) ∧
    ∃ p, scope.lookup name = some p ∧ e.prepare defaults scope' = pure p

variable {N : Set String} {bindings : Bindings} {scope scope' : Scope}

/-- A name that is bound again is a binding no more; the names of the bindings are not bound again. -/
theorem Inlined.cons (h : Inlined N bindings scope scope') {name : String} (free : name ∉ N)
    (p : Sql.Expr) :
    Inlined N (bindings.without [name]) ((name, p) :: scope) ((name, p) :: scope') := by
  have kept {other : String} (different : other ≠ name) :
      bindings.without [name] other = bindings other :=
    if_neg fun mem => different (List.mem_singleton.mp mem)
  have passed {other : String} (different : other ≠ name) (scope : Scope) :
      List.lookup other ((name, p) :: scope) = scope.lookup other := by
    rw [List.lookup_cons, beq_false_of_ne different]
  refine ⟨fun other unbound => ?_, fun other e found => ?_⟩
  · by_cases same : other = name
    · rw [same, List.lookup_cons_self, List.lookup_cons_self]
    · rw [passed same, passed same]
      exact h.others other ((kept same).symm.trans unbound)
  · have different : other ≠ name := by
      rintro rfl
      rw [Bindings.without, if_pos List.mem_cons_self] at found
      cases found
    obtain ⟨queryless, names, q, lookup, prepared⟩ := h.bound other e ((kept different).symm.trans found)
    refine ⟨queryless, names, q, (passed different scope).trans lookup, ?_⟩
    have same : ∀ n ∈ e.itemNames, List.lookup n ((name, p) :: scope') = scope'.lookup n := by
      intro n hn
      refine passed ?_ scope'
      rintro rfl
      exact free (names n hn)
    have result : e.prepare defaults scope' {} = .ok (q, {}) := by
      rw [prepared]
      rfl
    exact (e.prepare_queryless queryless same).eq_pure result

/-- What clauses leave behind, once with lets and once with the lets written out. -/
def InlinedAfter (N : Set String) (bindings : Bindings) (p q : Scope × Body) : Prop :=
  Inlined N bindings p.1 q.1 ∧ p.2 = q.2

mutual

/-- A reference to a let is prepared to what the expression of the let is prepared to. -/
theorem Expr.prepare_inline (e : Expr) {bindings : Bindings} {scope scope' : Scope}
    (h : Inlined N bindings scope scope') (free : ∀ name ∈ e.boundNames, name ∉ N) :
    Parallel Akin Eq (e.prepare defaults scope) ((e.inline bindings).prepare defaults scope') := by
  cases e with
  | constant value type => exact .pure rfl
  | queryable itemType => exact .throw rfl
  | item name type =>
    rw [Expr.inline]
    cases binding : bindings name with
    | none =>
      rw [Option.getD_none, Expr.prepare, Expr.prepare, h.others name binding]
      exact .refl Akin.refl _
    | some e =>
      obtain ⟨-, -, p, lookup, prepared⟩ := h.bound name e binding
      rw [Option.getD_some, prepared, Expr.prepare, lookup]
      exact .pure rfl
  | member source name type =>
    simp only [Expr.inline, Expr.prepare]
    refine .bindSame (source.prepare_inline h free) fun prepared => ?_
    exact .lift (preparedMember_akin prepared name type _ _)
  | binary op left right type =>
    obtain ⟨freeLeft, freeRight⟩ := List.forall_mem_append.mp free
    simp only [Expr.inline, Expr.prepare]
    refine .bindSame (left.prepare_inline h freeLeft) fun _ => ?_
    exact .bindSame (right.prepare_inline h freeRight) fun _ => .pure rfl
  | not operand =>
    simp only [Expr.inline, Expr.prepare]
    exact .bindSame (operand.prepare_inline h free) fun _ => .pure rfl
  | conditional test ifTrue ifFalse type =>
    obtain ⟨freeTest, others⟩ := List.forall_mem_append.mp free
    obtain ⟨freeTrue, freeFalse⟩ := List.forall_mem_append.mp others
    simp only [Expr.inline, Expr.prepare]
    refine .bindSame (test.prepare_inline h freeTest) fun _ => ?_
    refine .bindSame (ifTrue.prepare_inline h freeTrue) fun _ => ?_
    exact .bindSame (ifFalse.prepare_inline h freeFalse) fun _ => .pure rfl
  | call object declaringType method parameterTypes arguments type =>
    obtain ⟨freeObject, freeArguments⟩ := List.forall_mem_append.mp free
    simp only [Expr.inline, Expr.prepare]
    refine .bindSame (prepareObject_inline object h freeObject) fun _ => ?_
    refine .bindSame (prepareArguments_inline arguments h freeArguments) fun _ => ?_
    exact .lift (transform_akin _ _)
  | record members =>
    simp only [Expr.inline, Expr.prepare]
    exact .bindSame (prepareMembers_inline members h free) fun _ => .pure rfl
  | subQuery model =>
    simp only [Expr.inline, Expr.prepare]
    exact .bindSame (model.prepareIn_inline h free) fun _ => .pure rfl

theorem prepareObject_inline (object : Option Expr) {bindings : Bindings} {scope scope' : Scope}
    (h : Inlined N bindings scope scope') (free : ∀ name ∈ objectBoundNames object, name ∉ N) :
    Parallel Akin Eq (prepareObject defaults scope object)
      (prepareObject defaults scope' (inlineObject bindings object)) := by
  cases object with
  | none => exact .pure rfl
  | some object =>
    simp only [inlineObject, prepareObject]
    exact .bindSame (object.prepare_inline h free) fun _ => .pure rfl

theorem prepareArguments_inline (arguments : List Expr) {bindings : Bindings} {scope scope' : Scope}
    (h : Inlined N bindings scope scope') (free : ∀ name ∈ argumentsBoundNames arguments, name ∉ N) :
    Parallel Akin Eq (prepareArguments defaults scope arguments)
      (prepareArguments defaults scope' (inlineArguments bindings arguments)) := by
  cases arguments with
  | nil => exact .pure rfl
  | cons argument rest =>
    obtain ⟨freeArgument, freeRest⟩ := List.forall_mem_append.mp free
    simp only [inlineArguments, prepareArguments]
    refine .bindSame (argument.prepare_inline h freeArgument) fun _ => ?_
    exact .bindSame (prepareArguments_inline rest h freeRest) fun _ => .pure rfl

theorem prepareMembers_inline (members : List (String × Expr)) {bindings : Bindings}
    {scope scope' : Scope} (h : Inlined N bindings scope scope')
    (free : ∀ name ∈ membersBoundNames members, name ∉ N) :
    Parallel Akin Eq (prepareMembers defaults scope members)
      (prepareMembers defaults scope' (inlineMembers bindings members)) := by
  cases members with
  | nil => exact .pure rfl
  | cons member rest =>
    obtain ⟨name, e⟩ := member
    obtain ⟨freeMember, freeRest⟩ := List.forall_mem_append.mp free
    simp only [inlineMembers, prepareMembers]
    refine .bindSame (e.prepare_inline h freeMember) fun _ => ?_
    exact .bindSame (prepareMembers_inline rest h freeRest) fun _ => .pure rfl

theorem prepareOrderings_inline (orderings : List Ordering) {bindings : Bindings}
    {scope scope' : Scope} (h : Inlined N bindings scope scope')
    (free : ∀ name ∈ orderingsBoundNames orderings, name ∉ N) :
    Parallel Akin Eq (prepareOrderings defaults scope orderings)
      (prepareOrderings defaults scope' (inlineOrderings bindings orderings)) := by
  cases orderings with
  | nil => exact .pure rfl
  | cons ordering rest =>
    obtain ⟨e, direction⟩ := ordering
    obtain ⟨freeKey, freeRest⟩ := List.forall_mem_append.mp free
    simp only [inlineOrderings, prepareOrderings]
    refine .bindSame (e.prepare_inline h freeKey) fun _ => ?_
    exact .bindSame (prepareOrderings_inline rest h freeRest) fun _ => .pure rfl

/-- Neither a let nor its expression is a source of rows. -/
theorem prepareRows_inline (e : Expr) {bindings : Bindings} {scope scope' : Scope}
    (h : Inlined N bindings scope scope') (free : ∀ name ∈ e.boundNames, name ∉ N)
    (itemName : String) :
    Parallel Akin Eq (prepareRows defaults scope itemName e)
      (prepareRows defaults scope' itemName (e.inline bindings)) := by
  cases e with
  | queryable itemType => exact .pure rfl
  | subQuery model =>
    simp only [Expr.inline, prepareRows]
    refine .bindSame (model.prepareIn_inline h free) fun _ => ?_
    exact .bindSame (.refl Akin.refl _) fun _ => .pure rfl
  | item name type =>
    rw [Expr.inline]
    cases binding : bindings name with
    | none => exact .throw rfl
    | some e =>
      obtain ⟨queryless, -, p, -, prepared⟩ := h.bound name e binding
      cases e with
      | queryable itemType => cases congrFun prepared {}
      | subQuery model => cases queryless
      | _ => exact .throw rfl
  | _ => exact .throw rfl

theorem Source.prepare_inline (source : Source) {bindings : Bindings} {scope scope' : Scope}
    {body : Body} (h : Inlined N bindings scope scope')
    (free : ∀ name ∈ source.boundNames, name ∉ N) :
    Parallel Akin (InlinedAfter N (bindings.without [source.itemName]))
      (source.prepare defaults scope body)
      ((source.inline bindings).prepare defaults scope' body) := by
  obtain ⟨itemName, itemType, source⟩ := source
  obtain ⟨freeItem, freeRows⟩ := List.forall_mem_cons.mp free
  simp only [Source.inline, Source.prepare]
  refine .bindSame (.refl Akin.refl _) fun key => ?_
  refine .bindSame (prepareRows_inline source h freeRows itemName) fun rows => ?_
  exact .pure ⟨h.cons freeItem _, rfl⟩

theorem Clause.prepare_inline (clause : Clause) {bindings : Bindings} {scope scope' : Scope}
    {body : Body} (h : Inlined N bindings scope scope')
    (free : ∀ name ∈ clause.boundNames, name ∉ N) :
    Parallel Akin (InlinedAfter N (bindings.without clause.binds))
      (clause.prepare defaults scope body)
      ((clause.inline bindings).prepare defaults scope' body) := by
  cases clause with
  | source source => exact source.prepare_inline h free
  | filter predicate =>
    simp only [Clause.inline, Clause.prepare]
    exact .bindSame (predicate.prepare_inline h free) fun _ => .pure ⟨h, rfl⟩
  | orderBy orderings =>
    simp only [Clause.inline, Clause.prepare]
    exact .bindSame (prepareOrderings_inline orderings h free) fun _ => .pure ⟨h, rfl⟩
  | bind name e =>
    obtain ⟨freeName, freeLet⟩ := List.forall_mem_cons.mp free
    simp only [Clause.inline, Clause.prepare]
    exact .bindSame (e.prepare_inline h freeLet) fun _ => .pure ⟨h.cons freeName _, rfl⟩
  | keyJoin => exact .throw rfl
  | groupJoin => exact .throw rfl

theorem prepareClauses_inline (clauses : List Clause) {bindings : Bindings} {scope scope' : Scope}
    {body : Body} (h : Inlined N bindings scope scope')
    (free : ∀ name ∈ clausesBoundNames clauses, name ∉ N) :
    Parallel Akin (InlinedAfter N (bindings.without (clauses.flatMap Clause.binds)))
      (prepareClauses defaults scope body clauses)
      (prepareClauses defaults scope' body (inlineClauses bindings clauses)) := by
  cases clauses with
  | nil => exact .pure ⟨h, rfl⟩
  | cons clause rest =>
    obtain ⟨freeClause, freeRest⟩ := List.forall_mem_append.mp free
    simp only [inlineClauses, prepareClauses]
    refine .bind (clause.prepare_inline h freeClause) ?_
    rintro ⟨scope₁, body₁⟩ ⟨scope₁', _⟩ ⟨h₁, rfl⟩
    rw [List.flatMap_cons, Bindings.without_append]
    exact prepareClauses_inline rest h₁ freeRest

theorem Yield.prepare_inline (y : Yield) {bindings : Bindings} {scope scope' : Scope} {body : Body}
    (h : Inlined N bindings scope scope') (free : ∀ name ∈ y.boundNames, name ∉ N) :
    Parallel Akin Eq (y.prepare defaults scope body)
      ((y.inline bindings).prepare defaults scope' body) := by
  cases y with
  | select selector =>
    simp only [Yield.inline, Yield.prepare]
    exact .bindSame (selector.prepare_inline h free) fun _ => .pure rfl
  | group key element =>
    obtain ⟨freeKey, -⟩ := List.forall_mem_append.mp free
    simp only [Yield.inline, Yield.prepare]
    exact .bindSame (key.prepare_inline h freeKey) fun _ => .pure rfl

theorem Operator.prepare_inline (operator : Operator) {bindings : Bindings} {scope scope' : Scope}
    (h : Inlined N bindings scope scope') (free : ∀ name ∈ operator.boundNames, name ∉ N)
    (s : Sql.Statement) :
    Parallel Akin Eq (operator.prepare defaults scope s)
      ((operator.inline bindings).prepare defaults scope' s) := by
  cases operator with
  | take count =>
    simp only [Operator.inline, Operator.prepare]
    exact .bindSame (count.prepare_inline h free) fun _ => .refl Akin.refl _
  | skip offset =>
    simp only [Operator.inline, Operator.prepare]
    exact .bindSame (offset.prepare_inline h free) fun _ => .refl Akin.refl _
  | _ => exact .refl Akin.refl _

theorem prepareOperators_inline (operators : List Operator) {bindings : Bindings}
    {scope scope' : Scope} (h : Inlined N bindings scope scope')
    (free : ∀ name ∈ operatorsBoundNames operators, name ∉ N) (s : Sql.Statement) :
    Parallel Akin Eq (prepareOperators defaults scope s operators)
      (prepareOperators defaults scope' s (inlineOperators bindings operators)) := by
  cases operators with
  | nil => exact .pure rfl
  | cons operator rest =>
    obtain ⟨freeOperator, freeRest⟩ := List.forall_mem_append.mp free
    simp only [inlineOperators, prepareOperators, Operator.name_inline]
    refine .bindSame (.refl Akin.refl _) fun _ => ?_
    refine .bindSame (operator.prepare_inline h freeOperator s) fun t => ?_
    exact prepareOperators_inline rest h freeRest t

theorem Model.prepareIn_inline (m : Model) {bindings : Bindings} {scope scope' : Scope}
    (h : Inlined N bindings scope scope') (free : ∀ name ∈ m.boundNames, name ∉ N) :
    Parallel Akin Eq (m.prepareIn defaults scope)
      ((m.inline bindings).prepareIn defaults scope') := by
  obtain ⟨main, clauses, yield, operators⟩ := m
  obtain ⟨freeMain, others⟩ := List.forall_mem_append.mp free
  obtain ⟨freeClauses, others⟩ := List.forall_mem_append.mp others
  obtain ⟨freeYield, freeOperators⟩ := List.forall_mem_append.mp others
  simp only [Model.inline, Model.prepareIn]
  refine .bind (main.prepare_inline h freeMain) ?_
  rintro ⟨scope₁, body₁⟩ ⟨scope₁', _⟩ ⟨h₁, rfl⟩
  refine .bind (prepareClauses_inline clauses h₁ freeClauses) ?_
  rintro ⟨scope₂, body₂⟩ ⟨scope₂', _⟩ ⟨h₂, rfl⟩
  rw [← Bindings.without_append, List.singleton_append] at h₂
  refine .bindSame (yield.prepare_inline h₂ freeYield) fun s => ?_
  refine .bindSame (prepareOperators_inline operators h₂ freeOperators s) fun t => ?_
  exact .refl Akin.refl _

end

section Remaining

/-- What is left to do for a query once some of its clauses have been prepared. -/
def prepareRemaining (registry : Registry) (scope : Scope) (body : Body) (clauses : List Clause)
    (yield : Yield) (operators : List Operator) : Supply Sql.Statement := do
  let (scope, body) ← prepareClauses registry scope body clauses
  let s ← yield.prepare registry scope body
  let s ← prepareOperators registry scope s operators
  s.checked

theorem prepareClauses_append (registry : Registry) (scope : Scope) (body : Body)
    (before after : List Clause) :
    prepareClauses registry scope body (before ++ after) =
      prepareClauses registry scope body before >>= fun (scope, body) =>
        prepareClauses registry scope body after := by
  induction before generalizing scope body with
  | nil => simp only [List.nil_append, prepareClauses, pure_bind]
  | cons clause rest ih => simp only [List.cons_append, prepareClauses, bind_assoc, ih]

theorem Model.prepareIn_append (registry : Registry) (scope : Scope) {m : Model}
    {before after : List Clause} (clauses : m.clauses = before ++ after) :
    m.prepareIn registry scope =
      Model.prepareBody registry scope { m with clauses := before } >>= fun (scope, body) =>
        prepareRemaining registry scope body after m.yield m.operators := by
  obtain ⟨main, clauses, yield, operators⟩ := m
  subst clauses
  simp only [Model.prepareIn, Model.prepareBody, prepareRemaining, prepareClauses_append, bind_assoc]

theorem prepareRemaining_inline (h : Inlined N bindings scope scope') {clauses : List Clause}
    {yield : Yield} {operators : List Operator} (body : Body)
    (free : ∀ name ∈ clausesBoundNames clauses ++ (yield.boundNames ++ operatorsBoundNames operators),
      name ∉ N) :
    let remaining := bindings.without (clauses.flatMap Clause.binds)
    Parallel Akin Eq (prepareRemaining defaults scope body clauses yield operators)
      (prepareRemaining defaults scope' body (inlineClauses bindings clauses)
        (yield.inline remaining) (inlineOperators remaining operators)) := by
  obtain ⟨freeClauses, others⟩ := List.forall_mem_append.mp free
  obtain ⟨freeYield, freeOperators⟩ := List.forall_mem_append.mp others
  refine .bind (prepareClauses_inline clauses h freeClauses) ?_
  rintro ⟨scope₁, body₁⟩ ⟨scope₁', _⟩ ⟨h₁, rfl⟩
  refine .bindSame (yield.prepare_inline h₁ freeYield) fun s => ?_
  refine .bindSame (prepareOperators_inline operators h₁ freeOperators s) fun t => ?_
  exact .refl Akin.refl _

theorem prepareRemaining_bind {registry : Registry} {name : String} {e : Expr} {p : Sql.Expr}
    (prepared : e.prepare registry scope = pure p) (body : Body) (clauses : List Clause)
    (yield : Yield) (operators : List Operator) :
    prepareRemaining registry scope body (.bind name e :: clauses) yield operators =
      prepareRemaining registry ((name, p) :: scope) body clauses yield operators := by
  simp only [prepareRemaining, prepareClauses, Clause.prepare, prepared, pure_bind]

/-- Right behind a let, its expression stands for its name. -/
theorem inlined_let {name : String} {e : Expr} {p : Sql.Expr} {f f' : Fresh}
    (queryless : e.queryless = true) (prepared : e.prepare defaults scope f = .ok (p, f')) :
    Inlined {n | n ∈ e.itemNames} (.single name e) ((name, p) :: scope) scope := by
  refine ⟨fun other unbound => ?_, fun other e' found => ?_⟩
  · have different : other ≠ name := by
      rintro rfl
      rw [Bindings.single, if_pos rfl] at unbound
      cases unbound
    rw [List.lookup_cons, beq_false_of_ne different]
  · obtain ⟨rfl, same⟩ := Option.ite_none_right_eq_some.mp found
    obtain rfl := Option.some.inj same
    have always := (e.prepare_queryless queryless fun _ _ => rfl).eq_pure prepared
    exact ⟨queryless, fun _ hn => hn, p, List.lookup_cons_self, always⟩

end Remaining

namespace Model

variable {m : Model} {before after : List Clause} {name : String} {e : Expr} {f : Fresh}

/-- A let is transparent. Where its expression has no query inside, can be prepared and has no name
that is bound again behind the let, the query with the let written out is prepared to the same
statement, with the same keys and aliases; where there is none, the errors differ at most in what
they quote of the query. -/
theorem prepareIn_inlineLet (clauses : m.clauses = before ++ .bind name e :: after)
    (queryless : e.queryless = true)
    (prepares : ∀ scope' body f',
      prepareBody defaults scope { m with clauses := before } f = .ok ((scope', body), f') →
        ∃ p f'', e.prepare defaults scope' f' = .ok (p, f''))
    (free : ∀ n ∈ e.itemNames, n ∉ clausesBoundNames after ++
      (m.yield.boundNames ++ operatorsBoundNames m.operators)) :
    ((m.inlineLet before name e after).prepareIn defaults scope f).mapError Error.unquoted =
      (m.prepareIn defaults scope f).mapError Error.unquoted := by
  suffices h : Outcome.Parallel Akin Eq (m.prepareIn defaults scope f)
      ((m.inlineLet before name e after).prepareIn defaults scope f) from h.mapError_eq.symm
  have inlined : (m.inlineLet before name e after).clauses =
      before ++ inlineClauses (.single name e) after := rfl
  rw [prepareIn_append defaults scope clauses, prepareIn_append defaults scope inlined]
  change Outcome.Parallel Akin Eq
    (prepareBody defaults scope { m with clauses := before } f >>= _)
    (prepareBody defaults scope { m with clauses := before } f >>= _)
  cases drawn : prepareBody defaults scope { m with clauses := before } f with
  | error error => exact .error rfl
  | ok result =>
    obtain ⟨⟨scope', body⟩, f'⟩ := result
    obtain ⟨p, f'', prepared⟩ := prepares scope' body f' drawn
    have behind : Inlined {n | n ∈ e.itemNames} (.single name e) ((name, p) :: scope') scope' :=
      inlined_let queryless prepared
    have always := (e.prepare_queryless queryless fun _ _ => rfl).eq_pure prepared
    change Outcome.Parallel Akin Eq
      (prepareRemaining defaults scope' body (.bind name e :: after) m.yield m.operators f') _
    rw [prepareRemaining_bind always]
    exact (prepareRemaining_inline behind body fun n bound mem => free n mem bound).outcome f'

/-- The clauses of a query over cooks that come behind a let for their first name: the kitchens of
that name, and then their name under the name of the let. -/
def kitchenClauses : List Clause :=
  let kitchen : Expr := .item "k" (.entity "Kitchen")
  let named : Model :=
    { main := .table "k" "Kitchen"
      clauses :=
        [.filter (.binary .equal (.member kitchen "Name" .string) (.item "n" .string) .boolean)]
      yield := .select kitchen
      operators := [] }
  [.source ⟨"k", .entity "Kitchen", .subQuery named⟩,
   .filter (.binary .notEqual (.item "n" .string) (.constant (.string "hugo") .string) .boolean),
   .bind "n" (.member kitchen "Name" .string),
   .orderBy [⟨.item "n" .string, .asc⟩]]

def namesakeKitchenNames : Model :=
  { main := .table "c" "Cook"
    clauses := .bind "n" (.member (.item "c" (.entity "Cook")) "FirstName" .string) :: kitchenClauses
    yield := .select (.item "n" .string)
    operators := [] }

/-- The let is written out inside the source as well, but not behind the let of the same name. -/
theorem namesakeKitchenNames_inlined :
    let cookName : Expr := .member (.item "c" (.entity "Cook")) "FirstName" .string
    let inlined := namesakeKitchenNames.inlineLet [] "n" cookName kitchenClauses
    inlined.itemNames = ["c", "k", "k", "k", "c", "k", "c", "n", "k", "n", "n"] ∧
      ∃ s f, namesakeKitchenNames.prepareIn defaults [] {} = .ok (s, f) ∧
        inlined.prepareIn defaults [] {} = .ok (s, f) := by
  have prepared : (namesakeKitchenNames.prepareIn defaults [] {}).toOption.any (fun _ => true) =
      true := by
    decide +kernel
  obtain ⟨⟨s, f⟩, prepared, -⟩ := Outcome.exists_of_any prepared
  intro cookName inlined
  have prepares (scope' : Scope) (body : Body) (f' : Fresh)
      (drawn : prepareBody defaults [] { namesakeKitchenNames with clauses := [] } {} =
        .ok ((scope', body), f')) :
      ∃ p f'', cookName.prepare defaults scope' f' = .ok (p, f'') := by
    cases drawn
    exact ⟨_, _, rfl⟩
  have same : (inlined.prepareIn defaults [] {}).mapError Error.unquoted =
      (namesakeKitchenNames.prepareIn defaults [] {}).mapError Error.unquoted :=
    prepareIn_inlineLet rfl rfl prepares (by decide)
  refine ⟨by decide +kernel, s, f, prepared, ?_⟩
  rw [prepared] at same
  cases result : inlined.prepareIn defaults [] {} with
  | error e =>
    rw [result] at same
    cases same
  | ok r =>
    rw [result] at same
    exact same

end Model

end Query

end Comprehension
