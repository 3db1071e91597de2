import Comprehension.Compile
import Comprehension.Proofs.Mapping
import Comprehension.Proofs.Renaming.Methods
import Comprehension.Proofs.Renaming.Query
import Mathlib.Data.Set.Function
import Mathlib.Logic.Equiv.Basic

/-!
Compilation does not depend on the names of items and lets. A query and the same query under other
names are prepared to one and the same statement, as long as no two names become one; where they
cannot be compiled, the errors differ at most in what they quote of the query.
-/
namespace Comprehension.Query

open Error (Akin)
open Method.Registry (defaults transform_akin)
open Supply (Parallel)

variable {ρ : String → String} {N : Set String}

namespace Scope

/-- The scope under other names. -/
def rename (ρ : String → String) (scope : Scope) : Scope :=
  scope.map fun entry => (ρ entry.1, entry.2)

/-- Whether all names of a scope are among some names. -/
def Within (N : Set String) (scope : Scope) : Prop := ∀ entry ∈ scope, entry.1 ∈ N

/-- A name that no other name in scope becomes stands for what it stood for. -/
theorem lookup_rename (inj : Set.InjOn ρ N) {scope : Scope} (hs : scope.Within N) {name : String}
    (hn : name ∈ N) : (scope.rename ρ).lookup (ρ name) = scope.lookup name := by
  induction scope with
  | nil => rfl
  | cons entry rest ih =>
    obtain ⟨bound, e⟩ := entry
    obtain ⟨hb, hr⟩ := List.forall_mem_cons.mp hs
    have same : (ρ name == ρ bound) = (name == bound) := by
      rw [Bool.eq_iff_iff, beq_iff_eq, beq_iff_eq]
      exact inj.eq_iff hn hb
    have later := ih hr
    rw [rename, List.map_cons, List.lookup_cons, List.lookup_cons, same]
    cases name == bound with
    | true => rfl
    | false => exact later

end Scope

/-- What clauses leave behind, once as it is and once under other names. -/
def Renamed (ρ : String → String) (N : Set String) (p q : Scope × Body) : Prop :=
  p.1.Within N ∧ q = (p.1.rename ρ, p.2)

theorem mappedMember_akin (source : Sql.Expr) (name : String) (type : ValueType)
    (text text' : String) :
    Outcome.Parallel Akin Eq (mappedMember defaults source name type text)
      (mappedMember defaults source name type text') := by
  unfold mappedMember
  split
  · exact .ok rfl
  · exact .ok rfl
  · exact .ok rfl
  · exact transform_akin _ text'

theorem preparedMember_akin (source : Sql.Expr) (name : String) (type : ValueType)
    (text text' : String) :
    Outcome.Parallel Akin Eq (preparedMember defaults source name type text)
      (preparedMember defaults source name type text') := by
  have mapped := mappedMember_akin source name type text text'
  unfold preparedMember
  split
  · split
    · exact .ok rfl
    · split
      · exact .ok rfl
      · exact mapped
  · exact mapped

mutual

/-- An expression is prepared to the same expression under other names. -/
theorem Expr.prepare_rename (inj : Set.InjOn ρ N) (e : Expr) {scope : Scope}
    (hs : scope.Within N) (hn : ∀ name ∈ e.itemNames, name ∈ N) :
    Parallel Akin Eq (e.prepare defaults scope)
      ((e.rename ρ).prepare defaults (scope.rename ρ)) := by
  cases e with
  | constant value type => exact .pure rfl
  | queryable itemType => exact .throw rfl
  | item name type =>
    rw [Expr.rename, Expr.prepare, Expr.prepare,
      Scope.lookup_rename inj hs (hn name List.mem_cons_self)]
    cases scope.lookup name with
    | none => exact .throw rfl
    | some e => exact .pure rfl
  | member source name type =>
    simp only [Expr.rename, Expr.prepare]
    refine .bindSame (source.prepare_rename inj hs hn) fun prepared => ?_
    exact .lift (preparedMember_akin prepared name type _ _)
  | binary op left right type =>
    obtain ⟨hl, hr⟩ := List.forall_mem_append.mp hn
    simp only [Expr.rename, Expr.prepare]
    refine .bindSame (left.prepare_rename inj hs hl) fun _ => ?_
    exact .bindSame (right.prepare_rename inj hs hr) fun _ => .pure rfl
  | not operand =>
    simp only [Expr.rename, Expr.prepare]
    exact .bindSame (operand.prepare_rename inj hs hn) fun _ => .pure rfl
  | conditional test ifTrue ifFalse type =>
    obtain ⟨ht, others⟩ := List.forall_mem_append.mp hn
    obtain ⟨hi, he⟩ := List.forall_mem_append.mp others
    simp only [Expr.rename, Expr.prepare]
    refine .bindSame (test.prepare_rename inj hs ht) fun _ => ?_
    refine .bindSame (ifTrue.prepare_rename inj hs hi) fun _ => ?_
    exact .bindSame (ifFalse.prepare_rename inj hs he) fun _ => .pure rfl
  | call object declaringType method parameterTypes arguments type =>
    obtain ⟨ho, ha⟩ := List.forall_mem_append.mp hn
    simp only [Expr.rename, Expr.prepare]
    refine .bindSame (prepareObject_rename inj object hs ho) fun _ => ?_
    refine .bindSame (prepareArguments_rename inj arguments hs ha) fun _ => ?_
    exact .lift (transform_akin _ _)
  | record members =>
    simp only [Expr.rename, Expr.prepare]
    exact .bindSame (prepareMembers_rename inj members hs hn) fun _ => .pure rfl
  | subQuery model =>
    simp only [Expr.rename, Expr.prepare]
    exact .bindSame (model.prepareIn_rename inj hs hn) fun _ => .pure rfl

theorem prepareObject_rename (inj : Set.InjOn ρ N) (object : Option Expr) {scope : Scope}
    (hs : scope.Within N) (hn : ∀ name ∈ objectNames object, name ∈ N) :
    Parallel Akin Eq (prepareObject defaults scope object)
      (prepareObject defaults (scope.rename ρ) (renameObject ρ object)) := by
  cases object with
  | none => exact .pure rfl
  | some object =>
    simp only [renameObject, prepareObject]
    exact .bindSame (object.prepare_rename inj hs hn) fun _ => .pure rfl

theorem prepareArguments_rename (inj : Set.InjOn ρ N) (arguments : List Expr) {scope : Scope}
    (hs : scope.Within N) (hn : ∀ name ∈ argumentsNames arguments, name ∈ N) :
    Parallel Akin Eq (prepareArguments defaults scope arguments)
      (prepareArguments defaults (scope.rename ρ) (renameArguments ρ arguments)) := by
  cases arguments with
  | nil => exact .pure rfl
  | cons argument rest =>
    obtain ⟨ha, hr⟩ := List.forall_mem_append.mp hn
    simp only [renameArguments, prepareArguments]
    refine .bindSame (argument.prepare_rename inj hs ha) fun _ => ?_
    exact .bindSame (prepareArguments_rename inj rest hs hr) fun _ => .pure rfl

theorem prepareMembers_rename (inj : Set.InjOn ρ N) (members : List (String × Expr))
    {scope : Scope} (hs : scope.Within N) (hn : ∀ name ∈ membersNames members, name ∈ N) :
    Parallel Akin Eq (prepareMembers defaults scope members)
      (prepareMembers defaults (scope.rename ρ) (renameMembers ρ members)) := by
  cases members with
  | nil => exact .pure rfl
  | cons member rest =>
    obtain ⟨name, e⟩ := member
    obtain ⟨he, hr⟩ := List.forall_mem_append.mp hn
    simp only [renameMembers, prepareMembers]
    refine .bindSame (e.prepare_rename inj hs he) fun _ => ?_
    exact .bindSame (prepareMembers_rename inj rest hs hr) fun _ => .pure rfl

theorem prepareOrderings_rename (inj : Set.InjOn ρ N) (orderings : List Ordering)
    {scope : Scope} (hs : scope.Within N) (hn : ∀ name ∈ orderingsNames orderings, name ∈ N) :
    Parallel Akin Eq (prepareOrderings defaults scope orderings)
      (prepareOrderings defaults (scope.rename ρ) (renameOrderings ρ orderings)) := by
  cases orderings with
  | nil => exact .pure rfl
  | cons ordering rest =>
    obtain ⟨e, direction⟩ := ordering
    obtain ⟨he, hr⟩ := List.forall_mem_append.mp hn
    simp only [renameOrderings, prepareOrderings]
    refine .bindSame (e.prepare_rename inj hs he) fun _ => ?_
    exact .bindSame (prepareOrderings_rename inj rest hs hr) fun _ => .pure rfl

theorem prepareRows_rename (inj : Set.InjOn ρ N) (e : Expr) {scope : Scope}
    (hs : scope.Within N) (hn : ∀ name ∈ e.itemNames, name ∈ N) (itemName itemName' : String) :
    Parallel Akin Eq (prepareRows defaults scope itemName e)
      (prepareRows defaults (scope.rename ρ) itemName' (e.rename ρ)) := by
  cases e with
  | queryable itemType => exact .pure rfl
  | subQuery model =>
    simp only [Expr.rename, prepareRows]
    refine .bindSame (model.prepareIn_rename inj hs hn) fun _ => ?_
    exact .bindSame (.refl Akin.refl _) fun _ => .pure rfl
  | _ => exact .throw rfl

theorem Source.prepare_rename (inj : Set.InjOn ρ N) (source : Source) {scope : Scope} {body : Body}
    (hs : scope.Within N) (hn : ∀ name ∈ source.itemNames, name ∈ N) :
    Parallel Akin (Renamed ρ N) (source.prepare defaults scope body)
      ((source.rename ρ).prepare defaults (scope.rename ρ) body) := by
  obtain ⟨itemName, itemType, source⟩ := source
  obtain ⟨hi, he⟩ := List.forall_mem_cons.mp hn
  simp only [Source.rename, Source.prepare]
  refine .bindSame (.refl Akin.refl _) fun key => ?_
  refine .bindSame (prepareRows_rename inj source hs he itemName (ρ itemName)) fun rows => ?_
  exact .pure ⟨List.forall_mem_cons.mpr ⟨hi, hs⟩, rfl⟩

theorem Clause.prepare_rename (inj : Set.InjOn ρ N) (clause : Clause) {scope : Scope} {body : Body}
    (hs : scope.Within N) (hn : ∀ name ∈ clause.itemNames, name ∈ N) :
    Parallel Akin (Renamed ρ N) (clause.prepare defaults scope body)
      ((clause.rename ρ).prepare defaults (scope.rename ρ) body) := by
  cases clause with
  | source source => exact source.prepare_rename inj hs hn
  | filter predicate =>
    simp only [Clause.rename, Clause.prepare]
    exact .bindSame (predicate.prepare_rename inj hs hn) fun _ => .pure ⟨hs, rfl⟩
  | orderBy orderings =>
    simp only [Clause.rename, Clause.prepare]
    exact .bindSame (prepareOrderings_rename inj orderings hs hn) fun _ => .pure ⟨hs, rfl⟩
  | bind name e =>
    obtain ⟨hb, he⟩ := List.forall_mem_cons.mp hn
    simp only [Clause.rename, Clause.prepare]
    refine .bindSame (e.prepare_rename inj hs he) fun _ => ?_
    exact .pure ⟨List.forall_mem_cons.mpr ⟨hb, hs⟩, rfl⟩
  | keyJoin => exact .throw rfl
  | groupJoin => exact .throw rfl

theorem prepareClauses_rename (inj : Set.InjOn ρ N) (clauses : List Clause) {scope : Scope}
    {body : Body} (hs : scope.Within N) (hn : ∀ name ∈ clausesNames clauses, name ∈ N) :
    Parallel Akin (Renamed ρ N) (prepareClauses defaults scope body clauses)
      (prepareClauses defaults (scope.rename ρ) body (renameClauses ρ clauses)) := by
  cases clauses with
  | nil => exact .pure ⟨hs, rfl⟩
  | cons clause rest =>
    obtain ⟨hc, hr⟩ := List.forall_mem_append.mp hn
    simp only [renameClauses, prepareClauses]
    refine .bind (clause.prepare_rename inj hs hc) ?_
    rintro ⟨scope₁, body₁⟩ _ ⟨hs₁, rfl⟩
    exact prepareClauses_rename inj rest hs₁ hr

theorem Yield.prepare_rename (inj : Set.InjOn ρ N) (y : Yield) {scope : Scope} {body : Body}
    (hs : scope.Within N) (hn : ∀ name ∈ y.itemNames, name ∈ N) :
    Parallel Akin Eq (y.prepare defaults scope body)
      ((y.rename ρ).prepare defaults (scope.rename ρ) body) := by
  cases y with
  | select selector =>
    simp only [Yield.rename, Yield.prepare]
    exact .bindSame (selector.prepare_rename inj hs hn) fun _ => .pure rfl
  | group key element =>
    obtain ⟨hk, -⟩ := List.forall_mem_append.mp hn
    simp only [Yield.rename, Yield.prepare]
    exact .bindSame (key.prepare_rename inj hs hk) fun _ => .pure rfl

theorem Operator.prepare_rename (inj : Set.InjOn ρ N) (operator : Operator) {scope : Scope}
    (hs : scope.Within N) (hn : ∀ name ∈ operator.itemNames, name ∈ N) (s : Sql.Statement) :
    Parallel Akin Eq (operator.prepare defaults scope s)
      ((operator.rename ρ).prepare defaults (scope.rename ρ) s) := by
  cases operator with
  | take count =>
    simp only [Operator.rename, Operator.prepare]
    exact .bindSame (count.prepare_rename inj hs hn) fun _ => .refl Akin.refl _
  | skip offset =>
    simp only [Operator.rename, Operator.prepare]
    exact .bindSame (offset.prepare_rename inj hs hn) fun _ => .refl Akin.refl _
  | _ => exact .refl Akin.refl _

theorem prepareOperators_rename (inj : Set.InjOn ρ N) (operators : List Operator) {scope : Scope}
    (hs : scope.Within N) (hn : ∀ name ∈ operatorsNames operators, name ∈ N) (s : Sql.Statement) :
    Parallel Akin Eq (prepareOperators defaults scope s operators)
      (prepareOperators defaults (scope.rename ρ) s (renameOperators ρ operators)) := by
  cases operators with
  | nil => exact .pure rfl
  | cons operator rest =>
    obtain ⟨ho, hr⟩ := List.forall_mem_append.mp hn
    simp only [renameOperators, prepareOperators, Operator.name_rename]
    refine .bindSame (.refl Akin.refl _) fun _ => ?_
    refine .bindSame (operator.prepare_rename inj hs ho s) fun t => ?_
    exact prepareOperators_rename inj rest hs hr t

theorem Model.prepareIn_rename (inj : Set.InjOn ρ N) (m : Model) {scope : Scope}
    (hs : scope.Within N) (hn : ∀ name ∈ m.itemNames, name ∈ N) :
    Parallel Akin Eq (m.prepareIn defaults scope)
      ((m.rename ρ).prepareIn defaults (scope.rename ρ)) := by
  obtain ⟨main, clauses, yield, operators⟩ := m
  obtain ⟨hm, others⟩ := List.forall_mem_append.mp hn
  obtain ⟨hc, others⟩ := List.forall_mem_append.mp others
  obtain ⟨hy, ho⟩ := List.forall_mem_append.mp others
  simp only [Model.rename, Model.prepareIn]
  refine .bind (main.prepare_rename inj hs hm) ?_
  rintro ⟨scope₁, body₁⟩ _ ⟨hs₁, rfl⟩
  refine .bind (prepareClauses_rename inj clauses hs₁ hc) ?_
  rintro ⟨scope₂, body₂⟩ _ ⟨hs₂, rfl⟩
  refine .bindSame (yield.prepare_rename inj hs₂ hy) fun s => ?_
  refine .bindSame (prepareOperators_rename inj operators hs₂ ho s) fun t => ?_
  exact .refl Akin.refl _

end

namespace Model

/-- A query is compiled to the same command under other names for its items and lets, as long as no
two of its names become one. Where there is no command, the errors differ at most in what they
quote of the query. -/
theorem compile_rename (m : Model) (ρ : String → String)
    (injective : Set.InjOn ρ {name | name ∈ m.itemNames}) (schema : Schema) (options : Options) :
    ((m.rename ρ).compile defaults (Mapping.ofSchema schema) options).mapError Error.unquoted =
      (m.compile defaults (Mapping.ofSchema schema) options).mapError Error.unquoted := by
  have nothing : Scope.Within {name | name ∈ m.itemNames} [] := List.forall_mem_nil _
  have prepared := m.prepareIn_rename injective nothing fun _ hn => hn
  have stated : Parallel Akin Eq (m.statement defaults (Mapping.ofSchema schema) options)
      ((m.rename ρ).statement defaults (Mapping.ofSchema schema) options) :=
    .bindSame prepared fun _ => .refl Akin.refl _
  have compiled : Outcome.Parallel Akin Eq (m.compile defaults (Mapping.ofSchema schema) options)
      ((m.rename ρ).compile defaults (Mapping.ofSchema schema) options) := by
    refine .bind (stated {}) ?_
    rintro ⟨s, f⟩ _ ⟨rfl, rfl⟩
    exact .refl Akin.refl _
  exact compiled.mapError_eq.symm

/-- The first names of cooks that are names of kitchens. The name of the first item is used again
for a kitchen, after a let that was made with it. -/
def kitchenNamesakes : Model :=
  { main := .table "c" "Cook"
    clauses :=
      [.bind "n" (.member (.item "c" (.entity "Cook")) "FirstName" .string),
       .source (.table "c" "Kitchen"),
       .filter (.binary .equal (.member (.item "c" (.entity "Kitchen")) "Name" .string)
        (.item "n" .string) .boolean)]
    yield := .select (.item "n" .string)
    operators := [] }

/-- The name of the items and the name of the let change places. -/
theorem kitchenNamesakes_swapped :
    ∃ command, kitchenNamesakes.compile defaults (Mapping.ofSchema .restaurant) {} = .ok command ∧
      (kitchenNamesakes.rename (Equiv.swap "c" "n")).compile defaults (Mapping.ofSchema .restaurant)
        {} = .ok command ∧
      (kitchenNamesakes.rename (Equiv.swap "c" "n")).itemNames =
        ["n", "c", "n", "n", "n", "c", "c"] := by
  have compiled : (kitchenNamesakes.compile defaults (Mapping.ofSchema .restaurant)
      {}).toOption.isSome = true := by
    decide +kernel
  have same := kitchenNamesakes.compile_rename (Equiv.swap "c" "n")
    (Equiv.swap "c" "n").injective.injOn .restaurant {}
  cases first : kitchenNamesakes.compile defaults (Mapping.ofSchema .restaurant) {} with
  | error e =>
    rw [first] at compiled
    cases compiled
  | ok command =>
    refine ⟨command, rfl, ?_, by decide +kernel⟩
    rw [first] at same
    cases second : (kitchenNamesakes.rename (Equiv.swap "c" "n")).compile defaults
        (Mapping.ofSchema .restaurant) {} with
    | error e =>
      rw [second] at same
      cases same
    | ok other =>
      rw [second] at same
      exact same

end Model

end Comprehension.Query
