import Comprehension.Proofs.DeclaredTypes
import Comprehension.Proofs.Drafts

/-!
Which operators a query may end in. Rows are taken, skipped and made distinct as often as one likes;
one operator may then make a single value of them. Nothing else stands in the way of a query whose
clauses and numbers of rows can be prepared: its filters stay conditions in every statement that an
operator nests, so that the first operator out of place is what is reported.
-/
namespace Comprehension

open Method (Registry)

namespace Sql

/-- A condition that is boolean, or none. -/
def IsCondition (condition : Option Expr) : Prop := ∀ c ∈ condition, c.type.isBoolean = true

theorem isCondition_none : IsCondition none := by
  rintro _ ⟨⟩

theorem isCondition_conjoined {existing : Option Expr} {condition : Expr}
    (h : condition.type.isBoolean = true) : IsCondition (some (conjoined existing condition)) := by
  intro c hc
  obtain rfl := Option.some.inj hc
  cases existing with
  | none => exact h
  | some first => rfl

namespace Statement

variable {s : Statement}

theorem exists_nestedIf (h : IsCondition s.condition) (nest : Bool) (f : Fresh) :
    ∃ u f', s.nestedIf nest f = .ok (u, f') ∧ IsCondition u.condition := by
  cases nest with
  | false => exact ⟨s, f, rfl, h⟩
  | true => exact ⟨_, _, Supply.bind_of_ok (nested_of_boolean h f), isCondition_none⟩

/-- Other clauses may change once a statement is nested. -/
theorem exists_nestedIf_map (h : IsCondition s.condition) (nest : Bool) {g : Statement → Statement}
    (kept : ∀ u, (g u).condition = u.condition) (f : Fresh) :
    ∃ t f', (s.nestedIf nest >>= fun u => pure (g u)) f = .ok (t, f') ∧ IsCondition t.condition := by
  obtain ⟨u, f', nested, condition⟩ := exists_nestedIf h nest f
  refine ⟨g u, f', Supply.bind_of_ok nested, ?_⟩
  rw [kept]
  exact condition

theorem exists_aggregate (h : IsCondition s.condition) (function : Aggregate)
    (type? : Option ValueType) (f : Fresh) :
    ∃ t f', s.aggregate function type? f = .ok (t, f') ∧ IsCondition t.condition := by
  refine exists_nestedIf_map h s.limitsRows ?_ f
  exact fun _ => rfl

theorem exists_singleRow (h : IsCondition s.condition) (rows : Int) (orDefault : Bool) (f : Fresh) :
    ∃ t f', s.singleRow rows orDefault f = .ok (t, f') ∧ IsCondition t.condition := by
  refine exists_nestedIf_map h s.top.isSome ?_ f
  exact fun _ => rfl

theorem exists_distinct (h : IsCondition s.condition) (f : Fresh) :
    ∃ t f', s.distinct f = .ok (t, f') ∧ IsCondition t.condition := by
  refine exists_nestedIf_map h (s.top.isSome || s.rowNumber.isSome) ?_ f
  exact fun _ => rfl

theorem exists_take (h : IsCondition s.condition) (count : Expr) (f : Fresh) :
    ∃ t f', s.take count f = .ok (t, f') ∧ IsCondition t.condition := by
  have limited := exists_nestedIf_map (g := fun u => { u with top := some count }) h s.top.isSome
    (fun _ => rfl) f
  unfold take
  cases s.rowNumber with
  | none => exact limited
  | some rowNumber =>
    cases s.rowOffset with
    | none => exact limited
    | some offset => exact ⟨_, f, rfl, isCondition_conjoined rfl⟩

theorem exists_skip (h : IsCondition s.condition) (offset : Expr) (f : Fresh) :
    ∃ t f', s.skip offset f = .ok (t, f') ∧ IsCondition t.condition := by
  obtain ⟨u, f₁, nested, condition⟩ := exists_nestedIf h s.limitsRows f
  have placed := nested_of_boolean (s := u.numbered) condition f₁
  refine ⟨_, _, (Supply.bind_of_ok nested).trans (Supply.bind_of_ok placed), ?_⟩
  exact isCondition_conjoined rfl

end Statement

end Sql

namespace Query

open Sql (IsCondition)
open Sql.Statement (Lists)

/-- Operators that make a single value of the rows. -/
def Operator.isTerminal : Operator → Bool
  | .count | .longCount | .min | .max | .sum | .average | .first _ | .single _ => true
  | _ => false

theorem Operator.not_terminal_of_stage {operator : Operator} (stage : operator.isStage = true) :
    operator.isTerminal = false := by
  cases operator with
  | take | skip | distinct => rfl
  | _ => cases stage

/-- Stages, and at most one terminal operator at the end. -/
inductive Pipeline : List Operator → Prop where
  | nil : Pipeline []
  | ends {operator : Operator} (terminal : operator.isTerminal = true) : Pipeline [operator]
  | goesOn {operator : Operator} {rest : List Operator} (stage : operator.isStage = true)
    (others : Pipeline rest) : Pipeline (operator :: rest)

namespace Pipeline

variable {operator : Operator} {rest : List Operator}

theorem cons_iff (stage : operator.isStage = true) :
    Pipeline (operator :: rest) ↔ Pipeline rest := by
  refine ⟨fun h => ?_, .goesOn stage⟩
  cases h with
  | ends => exact .nil
  | goesOn _ others => exact others

theorem nil_of_not_stage (h : Pipeline (operator :: rest)) (stage : operator.isStage = false) :
    operator.isTerminal = true ∧ rest = [] := by
  cases h with
  | ends terminal => exact ⟨terminal, rfl⟩
  | goesOn stage' =>
    rw [stage] at stage'
    cases stage'

theorem of_append {before after : List Operator} (h : Pipeline (before ++ after)) :
    Pipeline before := by
  induction before with
  | nil => exact .nil
  | cons operator before ih =>
    cases stage : operator.isStage with
    | true => exact .goesOn stage (ih ((cons_iff stage).mp h))
    | false =>
      obtain ⟨terminal, none⟩ := h.nil_of_not_stage stage
      obtain ⟨rfl, rfl⟩ := List.append_eq_nil_iff.mp none
      exact .ends terminal

end Pipeline

/-- The first operator that is out of place after those before it. -/
structure FirstOffending (operators before : List Operator) (operator : Operator) : Prop where
  parts : ∃ after, operators = before ++ operator :: after
  legal : Pipeline before
  offends : ¬ Pipeline (before ++ [operator])

namespace FirstOffending

variable {operators before : List Operator} {operator first : Operator}

theorem not_pipeline (h : FirstOffending operators before operator) : ¬ Pipeline operators := by
  obtain ⟨⟨after, rfl⟩, -, offends⟩ := h
  intro pipeline
  rw [List.append_cons] at pipeline
  exact offends pipeline.of_append

/-- Something behind an operator after which nothing may stand. -/
theorem behind (terminal : first.isTerminal = true) (stage : first.isStage = false) :
    FirstOffending (first :: operator :: operators) [first] operator := by
  refine ⟨⟨operators, rfl⟩, .ends terminal, fun pipeline => ?_⟩
  cases (pipeline.nil_of_not_stage stage).2

/-- An operator of neither kind. -/
theorem unknown (terminal : operator.isTerminal = false) (stage : operator.isStage = false) :
    FirstOffending (operator :: operators) [] operator := by
  refine ⟨⟨operators, rfl⟩, .nil, fun pipeline => ?_⟩
  rw [(pipeline.nil_of_not_stage stage).1] at terminal
  cases terminal

theorem cons (stage : first.isStage = true) (h : FirstOffending operators before operator) :
    FirstOffending (first :: operators) (first :: before) operator := by
  obtain ⟨⟨after, rfl⟩, legal, offends⟩ := h
  exact ⟨⟨after, rfl⟩, .goesOn stage legal,
    fun longer => offends ((Pipeline.cons_iff stage).mp longer)⟩

end FirstOffending

/-- What is said of an operator that is out of place. -/
def Operator.refusal (before : List Operator) (operator : Operator) : Error :=
  .unsupportedOperator operator.name
    (if before.any isTerminal then .afterSingleValue else .noCounterpart)

/-- The number of rows that an operator takes or skips. -/
def Operator.argument? : Operator → Option Expr
  | .take e | .skip e => some e
  | _ => none

section Operators

variable {registry : Registry} {scope : Scope} {s t : Sql.Statement} {type : ValueType}
  {operators : List Operator} {f f₁ : Fresh}

theorem prepareOperators_cons_eq {operator : Operator} (sequence : s.shape.isSequence = true)
    (first : operator.prepare registry scope s f = .ok (t, f₁)) :
    prepareOperators registry scope s (operator :: operators) f =
      prepareOperators registry scope t operators f₁ := by
  have required : s.requireSequence operator.name = .ok () := if_pos sequence
  rw [prepareOperators, Supply.bind_of_ok (Supply.lift_eq_ok.mpr ⟨required, rfl⟩)]
  exact Supply.bind_of_ok first

/-- Every number of rows can be prepared when its operator is reached. -/
def ArgumentsPrepare (registry : Registry) (scope : Scope) (s : Sql.Statement)
    (operators : List Operator) (f : Fresh) : Prop :=
  ∀ (before : List Operator) (operator : Operator) (after : List Operator),
    operators = before ++ operator :: after →
      ∀ t f₁, prepareOperators registry scope s before f = .ok (t, f₁) →
        ∀ e ∈ operator.argument?, ∃ r, e.prepare registry scope f₁ = .ok r

theorem ArgumentsPrepare.head {operator : Operator}
    (h : ArgumentsPrepare registry scope s (operator :: operators) f) :
    ∀ e ∈ operator.argument?, ∃ r, e.prepare registry scope f = .ok r :=
  h [] operator operators rfl s f rfl

theorem ArgumentsPrepare.tail {operator : Operator}
    (h : ArgumentsPrepare registry scope s (operator :: operators) f)
    (sequence : s.shape.isSequence = true)
    (first : operator.prepare registry scope s f = .ok (t, f₁)) :
    ArgumentsPrepare registry scope t operators f₁ := by
  rintro before next after rfl u f₂ run
  refine h (operator :: before) next after rfl u f₂ ?_
  rw [prepareOperators_cons_eq sequence first, run]

/-- Numbers that can be prepared anywhere can be prepared when they are reached. -/
theorem ArgumentsPrepare.of_forall
    (h : ∀ operator ∈ operators, ∀ e ∈ operator.argument?, ∀ f, ∃ r,
      e.prepare registry scope f = .ok r) : ArgumentsPrepare registry scope s operators f := by
  rintro before operator after rfl t f₁ - e argument
  exact h operator (List.mem_append_right _ List.mem_cons_self) e argument f₁

/-- An operator that has a counterpart succeeds. -/
theorem Operator.exists_prepare {operator : Operator}
    (known : operator.isStage = true ∨ operator.isTerminal = true) (h : IsCondition s.condition)
    (argument : ∀ e ∈ operator.argument?, ∃ r, e.prepare registry scope f = .ok r) :
    ∃ t f', operator.prepare registry scope s f = .ok (t, f') ∧ IsCondition t.condition := by
  cases operator with
  | take count =>
    obtain ⟨⟨e, f₁⟩, prepared⟩ := argument count rfl
    rw [prepare, Supply.bind_of_ok prepared]
    exact Sql.Statement.exists_take h e f₁
  | skip offset =>
    obtain ⟨⟨e, f₁⟩, prepared⟩ := argument offset rfl
    rw [prepare, Supply.bind_of_ok prepared]
    exact Sql.Statement.exists_skip h e f₁
  | distinct =>
    rw [prepare]
    exact Sql.Statement.exists_distinct h f
  | first | single =>
    rw [prepare]
    exact Sql.Statement.exists_singleRow h _ _ f
  | count | longCount | min | max | sum | average =>
    rw [prepare]
    exact Sql.Statement.exists_aggregate h _ _ f
  | other name => rcases known with known | known <;> cases known

/-- An operator of neither kind is refused, whatever the rows are. -/
theorem prepareOperators_unknown {operator : Operator} (sequence : s.shape.isSequence = true)
    (terminal : operator.isTerminal = false) (stage : operator.isStage = false) :
    prepareOperators registry scope s (operator :: operators) f =
      .error (.unsupportedOperator operator.name .noCounterpart) := by
  have required : s.requireSequence operator.name = .ok () := if_pos sequence
  have refused : operator.prepare registry scope s f =
      .error (.unsupportedOperator operator.name .noCounterpart) := by
    cases operator with
    | other name =>
      rw [Operator.prepare]
      rfl
    | take | skip | distinct => cases stage
    | _ => cases terminal
  rw [prepareOperators, Supply.bind_of_ok (Supply.lift_eq_ok.mpr ⟨required, rfl⟩)]
  exact Supply.bind_of_error refused

/-- Operators that form a pipeline are carried out; of others, the first one out of place is
refused. -/
theorem prepareOperators_cases (lists : s.Lists type) (h : IsCondition s.condition)
    (arguments : ArgumentsPrepare registry scope s operators f) :
    (Pipeline operators ∧ ∃ t f', prepareOperators registry scope s operators f = .ok (t, f') ∧
      IsCondition t.condition) ∨
    ∃ before operator, FirstOffending operators before operator ∧
      prepareOperators registry scope s operators f = .error (operator.refusal before) := by
  induction operators generalizing s f with
  | nil => exact .inl ⟨.nil, s, f, rfl, h⟩
  | cons operator rest ih =>
    have sequence : s.shape.isSequence = true := by
      rw [lists.shape]
      rfl
    cases stage : operator.isStage with
    | true =>
      -- The statement still lists its rows under a condition, as the rest of the operators needs it.
      obtain ⟨t, f₁, first, condition⟩ := Operator.exists_prepare (.inl stage) h arguments.head
      have lists' := operator.shape_of_prepare lists first
      rw [stage, if_pos rfl] at lists'
      rw [prepareOperators_cons_eq sequence first]
      rcases ih lists' condition (arguments.tail sequence first) with
        ⟨pipeline, succeeds⟩ | ⟨before, offender, offending, refused⟩
      · exact .inl ⟨.goesOn stage pipeline, succeeds⟩
      · refine .inr ⟨operator :: before, offender, offending.cons stage, ?_⟩
        rw [refused, Operator.refusal, Operator.refusal, List.any_cons,
          Operator.not_terminal_of_stage stage, Bool.false_or]
    | false =>
      cases terminal : operator.isTerminal with
      | true =>
        -- A single value is the end, or else the next operator is the first one out of place.
        obtain ⟨t, f₁, first, condition⟩ := Operator.exists_prepare (.inr terminal) h arguments.head
        have single := operator.shape_of_prepare lists first
        rw [stage, if_neg Bool.false_ne_true] at single
        rw [prepareOperators_cons_eq sequence first]
        cases rest with
        | nil => exact .inl ⟨.ends terminal, t, f₁, rfl, condition⟩
        | cons next rest =>
          refine .inr ⟨[operator], next, .behind terminal stage, ?_⟩
          rw [prepareOperators_after_single single.1, Operator.refusal, List.any_cons, terminal]
          rfl
      | false =>
        exact .inr ⟨[], operator, .unknown terminal stage,
          prepareOperators_unknown sequence terminal stage⟩

end Operators

section Clauses

variable {registry : Registry} {scope scope' : Scope} {body body' : Body} {clauses : List Clause}
  {f f' : Fresh}

theorem Source.condition_of_prepare {source : Source}
    (h : source.prepare registry scope body f = .ok ((scope', body'), f')) :
    body'.condition = body.condition := by
  obtain ⟨itemName, itemType, source⟩ := source
  obtain ⟨key, f₁, rows, -, -, rfl, rfl⟩ := Source.prepare_eq_ok h
  rfl

/-- Filters alone add to the condition. -/
theorem Clause.condition_of_prepare {clause : Clause}
    (h : clause.prepare registry scope body f = .ok ((scope', body'), f')) :
    body'.condition = body.condition ∨
      ∃ predicate e, clause = .filter predicate ∧
        predicate.prepare registry scope f = .ok (e, f') ∧
        body'.condition = some (Sql.conjoined body.condition e) := by
  cases clause with
  | source source =>
    rw [Clause.prepare] at h
    exact .inl (Source.condition_of_prepare h)
  | filter predicate =>
    obtain ⟨e, prepared, rfl, rfl⟩ := Clause.prepare_filter_eq_ok h
    exact .inr ⟨predicate, e, rfl, prepared, rfl⟩
  | orderBy orderings =>
    obtain ⟨sorting, -, rfl, rfl⟩ := prepare_orderBy_eq_ok h
    exact .inl rfl
  | bind name e =>
    obtain ⟨e', -, rfl, rfl⟩ := prepare_bind_eq_ok h
    exact .inl rfl
  | keyJoin | groupJoin =>
    exact (Supply.throw_ne_ok.mp h).elim

/-- Every filter is boolean where it stands. -/
def FiltersBoolean (registry : Registry) (scope : Scope) (body : Body) (clauses : List Clause)
    (f : Fresh) : Prop :=
  ∀ (before : List Clause) (predicate : Expr) (after : List Clause),
    clauses = before ++ Clause.filter predicate :: after →
      ∀ scope' body' f₁, prepareClauses registry scope body before f = .ok ((scope', body'), f₁) →
        ∀ e f₂, predicate.prepare registry scope' f₁ = .ok (e, f₂) → e.type.isBoolean = true

theorem isCondition_of_prepareClauses (filters : FiltersBoolean registry scope body clauses f)
    (before : IsCondition body.condition)
    (h : prepareClauses registry scope body clauses f = .ok ((scope', body'), f')) :
    IsCondition body'.condition := by
  induction clauses generalizing scope body f with
  | nil =>
    obtain ⟨result, rfl⟩ := Supply.pure_eq_ok.mp h
    obtain ⟨rfl, rfl⟩ := Prod.mk.inj result
    exact before
  | cons clause rest ih =>
    obtain ⟨⟨scope₁, body₁⟩, f₁, first, others⟩ := Supply.bind_eq_ok.mp h
    refine ih ?_ ?_ others
    · rintro preceding predicate after rfl scope₂ body₂ f₂ run
      refine filters (clause :: preceding) predicate after rfl scope₂ body₂ f₂ ?_
      rw [prepareClauses]
      exact Supply.bind_eq_ok.mpr ⟨_, f₁, first, run⟩
    · rcases Clause.condition_of_prepare first with same | ⟨predicate, e, rfl, prepared, added⟩
      · rw [same]
        exact before
      · rw [added]
        exact Sql.isCondition_conjoined
          (filters [] predicate rest rfl scope body f rfl e f₁ prepared)

end Clauses

namespace Model

variable {registry : Registry} {scope scope₁ scope₂ : Scope} {m : Model} {body₁ body₂ : Body}
  {s : Sql.Statement} {f f₁ f₂ f₃ : Fresh}

/-- What is left of preparation behind the selection. -/
theorem prepareIn_of_yield
    (main : m.main.prepare registry scope ⟨[], none, []⟩ f = .ok ((scope₁, body₁), f₁))
    (clauses : prepareClauses registry scope₁ body₁ m.clauses f₁ = .ok ((scope₂, body₂), f₂))
    (yielded : m.yield.prepare registry scope₂ body₂ f₂ = .ok (s, f₃)) :
    m.prepareIn registry scope f =
      (prepareOperators registry scope₂ s m.operators >>= fun t => liftM t.checked) f₃ := by
  obtain ⟨source, clauses', yield, operators⟩ := m
  rw [prepareIn]
  exact (Supply.bind_of_ok main).trans ((Supply.bind_of_ok clauses).trans
    (Supply.bind_of_ok yielded))

/-- A query whose clauses and numbers of rows can be prepared, and whose filters are boolean, is
prepared just when its operators form a pipeline. Otherwise the first of them that is out of place is
named. On a draft that each operator changes the outcome is the same. -/
theorem prepareIn_ok_iff_pipeline
    (main : m.main.prepare registry scope ⟨[], none, []⟩ f = .ok ((scope₁, body₁), f₁))
    (clauses : prepareClauses registry scope₁ body₁ m.clauses f₁ = .ok ((scope₂, body₂), f₂))
    (filters : FiltersBoolean registry scope₁ body₁ m.clauses f₁)
    (yielded : m.yield.prepare registry scope₂ body₂ f₂ = .ok (s, f₃))
    (arguments : ArgumentsPrepare registry scope₂ s m.operators f₃) :
    ((∃ r, m.prepareIn registry scope f = .ok r) ↔ Pipeline m.operators) ∧
      (¬ Pipeline m.operators → ∃ before operator, FirstOffending m.operators before operator ∧
        m.prepareIn registry scope f = .error (.unsupportedOperator operator.name
          (if before.any Operator.isTerminal then .afterSingleValue else .noCounterpart))) ∧
      m.draftIn registry scope f = m.prepareIn registry scope f := by
  rw [← and_assoc]
  refine ⟨?_, by rw [prepareIn_eq_draftIn]⟩
  have condition : IsCondition body₂.condition := by
    refine isCondition_of_prepareClauses filters ?_ clauses
    rw [Source.condition_of_prepare main]
    exact Sql.isCondition_none
  rw [prepareIn_of_yield main clauses yielded]
  obtain ⟨e, grouping, -, rfl⟩ := Yield.prepare_eq_ok yielded
  rcases prepareOperators_cases (body₂.lists_statement e grouping) condition arguments with
    ⟨pipeline, t, f', applied, checkable⟩ | ⟨before, operator, offending, refused⟩
  · have checked := Sql.Statement.checked_of_boolean checkable
    refine ⟨iff_of_true ⟨(t, f'), ?_⟩ pipeline, fun illegal => absurd pipeline illegal⟩
    exact Supply.bind_eq_ok.mpr ⟨t, f', applied, Supply.lift_eq_ok.mpr ⟨checked, rfl⟩⟩
  · rw [Supply.bind_of_error refused]
    refine ⟨iff_of_false ?_ offending.not_pipeline, fun _ => ⟨before, operator, offending, rfl⟩⟩
    rintro ⟨_, ⟨⟩⟩

/-- The cooks with a number above five, with operators on the result. -/
def cooksPastFive (operators : List Operator) : Model :=
  let cook : Expr := .item "c" (.entity "Cook")
  { main := .table "c" "Cook"
    clauses :=
      [.filter (.binary .greaterThan (.member cook "ID" .int32) (.constant (.int 5) .int32) .boolean)]
    yield := .select (.member cook "FirstName" .string)
    operators }

theorem cooksPastFive_filtersBoolean (registry : Registry) (scope : Scope) (body : Body)
    (operators : List Operator) (f : Fresh) :
    FiltersBoolean registry scope body (cooksPastFive operators).clauses f := by
  intro before predicate after parts scope' body' f₁ _ e f₂ prepared
  cases before with
  | nil =>
    obtain ⟨same, -⟩ := List.cons.inj parts
    obtain rfl := Clause.filter.inj same
    obtain ⟨left, f₃, right, -, -, rfl⟩ := Expr.prepare_binary_eq_ok prepared
    rfl
  | cons clause before => exact absurd (List.cons.inj parts).2 (by simp)

theorem cooksPastFive_pipelines :
    let number (n : Int) : Expr := .constant (.int n) .int32
    let counted := cooksPastFive [.skip (number 1), .distinct, .take (number 3), .count]
    let countedFirst := cooksPastFive [.skip (number 1), .count, .take (number 3), .other "Reverse"]
    Pipeline counted.operators ∧ (∃ r, counted.prepareIn .defaults [] {} = .ok r) ∧
      ¬ (∃ r, countedFirst.prepareIn .defaults [] {} = .ok r) ∧
      ∃ before operator, FirstOffending countedFirst.operators before operator ∧
        countedFirst.prepareIn .defaults [] {} = .error (.unsupportedOperator operator.name
          (if before.any Operator.isTerminal then .afterSingleValue else .noCounterpart)) ∧
        operator.name = "Take" := by
  intro number counted countedFirst
  have success : ((cooksPastFive []).prepareIn .defaults [] {}).toOption.any (fun _ => true) =
      true := by
    decide +kernel
  obtain ⟨_, prepared, -⟩ := Outcome.exists_of_any success
  obtain ⟨scope, body, f₂, s, f₃, drawn, yielded, -⟩ := prepareIn_eq_ok prepared
  obtain ⟨⟨scope₁, body₁⟩, f₁, main, clauses⟩ := Supply.bind_eq_ok.mp drawn
  have numbers (n : Int) (f : Fresh) : ∃ e f', (number n).prepare .defaults scope f = .ok (e, f') :=
    ⟨.constant (.int n) .int32, f, rfl⟩
  have both := And.intro (numbers 1) (numbers 3)
  have pipeline : Pipeline counted.operators :=
    .goesOn rfl (.goesOn rfl (.goesOn rfl (.ends rfl)))
  have illegal : ¬ Pipeline countedFirst.operators := by
    intro pipeline
    have rest := (Pipeline.cons_iff rfl).mp pipeline
    cases (rest.nil_of_not_stage rfl).2
  obtain ⟨accepted, -⟩ := prepareIn_ok_iff_pipeline (m := counted) main clauses
    (cooksPastFive_filtersBoolean _ _ _ _ _) yielded
    (.of_forall (by simpa [counted, cooksPastFive, Operator.argument?] using both))
  obtain ⟨refused, named, -⟩ := prepareIn_ok_iff_pipeline (m := countedFirst) main clauses
    (cooksPastFive_filtersBoolean _ _ _ _ _) yielded
    (.of_forall (by simpa [countedFirst, cooksPastFive, Operator.argument?] using both))
  obtain ⟨before, operator, offending, error⟩ := named illegal
  have evaluated : Outcome.error? (countedFirst.prepareIn .defaults [] {}) =
      some (.unsupportedOperator "Take" .afterSingleValue) := by
    decide +kernel
  rw [error] at evaluated
  refine ⟨pipeline, accepted.mpr pipeline, fun success => illegal (refused.mp success), before,
    operator, offending, error, ?_⟩
  exact (Error.unsupportedOperator.inj (Option.some.inj evaluated)).1

end Model

end Query

end Comprehension
