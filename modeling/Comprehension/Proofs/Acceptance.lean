import Comprehension.Proofs.Compilation
import Comprehension.Proofs.Inside

/-!
Which statements can be written as commands. A resolved statement can, but for one reason: where
booleans are no values, an operand of a connective or a test of a case that is not boolean has no
form as a condition.
-/
namespace Comprehension

namespace Outcome

/-- Whatever error there is, it has a property. -/
def FailsOnly {ε α : Type} (P : ε → Prop) (x : Except ε α) : Prop := ∀ e, x = .error e → P e

variable {ε α β : Type} {P : ε → Prop}

theorem failsOnly_ok (a : α) : FailsOnly P (.ok a : Except ε α) := by
  intro e h
  cases h

theorem failsOnly_pure (a : α) : FailsOnly P (pure a : Except ε α) := failsOnly_ok a

theorem FailsOnly.bind {x : Except ε α} {k : α → Except ε β} (hx : FailsOnly P x)
    (hk : ∀ a, FailsOnly P (k a)) : FailsOnly P (x >>= k) := by
  cases x with
  | error e =>
    intro e' h
    cases h
    exact hx e rfl
  | ok a => exact hk a

end Outcome

namespace Sql

open Command
open Outcome (FailsOnly failsOnly_ok failsOnly_pure)

/-- Why a statement cannot be written: somewhere in it a condition is needed, and what stands there
is not boolean. -/
def Refused (native : Bool) (root : Node) (error : Error) : Prop :=
  native = false ∧ ∃ e operand, Node.Inside root (.expression e) ∧ operand ∈ e.criteria ∧
    operand.type.isBoolean = false ∧ error = .unsupportedCriterion operand.kind

section Builders

variable {P : Error → Prop} {native : Bool}

theorem failsOnly_predicatePieces {e : Expr} {rendered : Rendered} (h : FailsOnly P rendered)
    (refused : native = false → e.isPredicate = false → P (.unsupportedCriterion e.kind)) :
    FailsOnly P (predicatePieces native e rendered) := by
  unfold predicatePieces
  split
  · exact h
  · rename_i neither
    rw [Bool.or_eq_true, not_or] at neither
    intro error hr
    cases hr
    exact refused (Bool.not_eq_true _ ▸ neither.2) (Bool.not_eq_true _ ▸ neither.1)

theorem failsOnly_binaryPieces {op : BinaryOp} {left right : Expr} {l r : Rendered}
    (hl : FailsOnly P l) (hr : FailsOnly P r) : FailsOnly P (binaryPieces op left right l r) := by
  unfold binaryPieces
  split
  · have subject : FailsOnly P (if right.isNullConstant then l else r) := by
      split
      · exact hl
      · exact hr
    dsimp only
    split
    · exact subject.bind fun _ => failsOnly_pure _
    · exact subject.bind fun _ => failsOnly_pure _
    · exact failsOnly_ok _
  · exact hl.bind fun _ => hr.bind fun _ => failsOnly_pure _

theorem failsOnly_namedPieces {name : Option String} {e : Expr} {rendered : Rendered}
    (h : FailsOnly P rendered) : FailsOnly P (namedPieces name e rendered) := by
  unfold namedPieces
  split
  · exact failsOnly_ok _
  · exact failsOnly_ok _
  · exact h
  · exact h.bind fun _ => failsOnly_pure _

end Builders

variable {native : Bool} {root : Node}

/-- An operand that cannot be a condition is not boolean. -/
theorem failsOnly_criterion (writable : ∀ n, Node.Inside root n → n.Writable native) {e operand : Expr}
    (inside : Node.Inside root (.expression e)) (ho : operand ∈ e.criteria) {rendered : Rendered}
    (h : FailsOnly (Refused native root) rendered) :
    FailsOnly (Refused native root) (predicatePieces native operand rendered) := by
  refine failsOnly_predicatePieces h fun notNative notPredicate => ?_
  rcases (writable _ inside).2 notNative operand ho with predicate | notBoolean
  · rw [notPredicate] at predicate
    cases predicate
  · exact ⟨notNative, e, operand, inside, ho, notBoolean, rfl⟩

mutual

theorem Expr.pieces_failsOnly (writable : ∀ n, Node.Inside root n → n.Writable native) :
    ∀ (e : Expr) (listing : Listing), Node.Inside root (.expression e) →
      FailsOnly (Refused native root) (e.pieces native listing)
  | .column _, _, _ | .constant _ _, _, _ | .literal _, _, _ | .customText _ _, _, _
  | .entity _, _, _ | .entityReference _ _ _, _, _ => failsOnly_ok _
  | .entityConstant _ _ key, _, inside =>
    key.pieces_failsOnly writable .projected (inside.operand List.mem_cons_self)
  | .binary op left right type, listing, inside => by
    have hl := left.pieces_failsOnly writable .projected
      (inside.operand (by simp [Expr.operands, Expr.slots]))
    have hr := right.pieces_failsOnly writable .projected
      (inside.operand (by simp [Expr.operands, Expr.slots]))
    exact failsOnly_binaryPieces hl hr
  | .like expression pattern, listing, inside => by
    have he := expression.pieces_failsOnly writable .projected
      (inside.operand (by simp [Expr.operands, Expr.slots]))
    have hp := pattern.pieces_failsOnly writable .projected
      (inside.operand (by simp [Expr.operands, Expr.slots]))
    exact he.bind fun _ => hp.bind fun _ => failsOnly_pure _
  | .likeEscape value, listing, inside => by
    have hv := value.pieces_failsOnly writable .projected (inside.operand List.mem_cons_self)
    exact hv.bind fun _ => failsOnly_pure _
  | .logical op left right, listing, inside => by
    have hl := left.pieces_failsOnly writable .projected
      (inside.operand (by simp [Expr.operands, Expr.slots]))
    have hr := right.pieces_failsOnly writable .projected
      (inside.operand (by simp [Expr.operands, Expr.slots]))
    have first := failsOnly_criterion writable inside List.mem_cons_self hl
    have second := failsOnly_criterion writable inside
      (List.mem_cons_of_mem _ List.mem_cons_self) hr
    exact first.bind fun _ => second.bind fun _ => failsOnly_pure _
  | .not operand, listing, inside => by
    have ho := operand.pieces_failsOnly writable .projected (inside.operand List.mem_cons_self)
    exact (failsOnly_criterion writable inside List.mem_cons_self ho).bind fun _ => failsOnly_pure _
  | .case branches otherwise type, listing, inside => by
    have hb := branchesPieces_failsOnly writable branches fun branch mem => by
      have criterion : branch.1 ∈ (Expr.case branches otherwise type).criteria :=
        List.mem_map_of_mem mem
      obtain ⟨test, value⟩ := Expr.branch_mem_operands mem otherwise type
      exact ⟨⟨_, inside, criterion⟩, inside.operand test, inside.operand value⟩
    have ho := optionPieces_failsOnly writable otherwise .projected fun e he =>
      inside.operand (by simp [Expr.operands, Expr.slots, he])
    exact hb.bind fun _ => ho.bind fun _ => failsOnly_pure _
  | .function name args type isPredicate, listing, inside => by
    have ha := argsPieces_failsOnly writable args fun e he =>
      inside.operand (by simp [Expr.operands, Expr.slots, he])
    exact ha.bind fun _ => failsOnly_pure _
  | .convert target expression type, listing, inside => by
    have he := expression.pieces_failsOnly writable .projected (inside.operand List.mem_cons_self)
    exact he.bind fun _ => failsOnly_pure _
  | .aggregation function expression type, listing, inside => by
    have he := expression.pieces_failsOnly writable .projected (inside.operand List.mem_cons_self)
    simp only [Expr.pieces]
    split
    · exact failsOnly_ok _
    · exact he.bind fun _ => failsOnly_pure _
  | .rowNumber orderings, listing, inside => by
    have ho := orderingsPieces_failsOnly writable orderings fun o mem =>
      inside.operand (Expr.ordering_mem_operands mem)
    exact ho.bind fun _ => failsOnly_pure _
  | .named ⟨name, expression⟩, listing, inside => by
    have below := inside.operand (List.mem_singleton_self expression)
    cases listing with
    | grouped => exact expression.pieces_failsOnly writable .grouped below
    | projected =>
      exact failsOnly_namedPieces (expression.pieces_failsOnly writable .projected below)
  | .compound members, listing, inside => by
    have hm := membersPieces_failsOnly writable members listing fun n mem =>
      inside.operand (Expr.member_mem_operands mem)
    exact hm.bind fun _ => failsOnly_pure _
  | .subStatement statement, listing, inside => by
    have hs := statement.pieces_failsOnly writable true (inside.part List.mem_cons_self)
    exact hs.bind fun _ => failsOnly_pure _
  | .tableReference _ _, _, inside | .member _ _ _, _, inside | .navigation _ _ _, _, inside
  | .call _, _, inside => nomatch (writable _ inside).1

theorem optionPieces_failsOnly (writable : ∀ n, Node.Inside root n → n.Writable native) :
    ∀ (e : Option Expr) (listing : Listing), (∀ e', e = some e' → Node.Inside root (.expression e')) →
      FailsOnly (Refused native root) (optionPieces native listing e)
  | none, _, _ => failsOnly_ok _
  | some e, listing, inside =>
    (e.pieces_failsOnly writable listing (inside e rfl)).bind fun _ => failsOnly_pure _

theorem argsPieces_failsOnly (writable : ∀ n, Node.Inside root n → n.Writable native) :
    ∀ args : List Expr, (∀ e ∈ args, Node.Inside root (.expression e)) →
      FailsOnly (Refused native root) (argsPieces native args)
  | [], _ => failsOnly_ok _
  | e :: rest, inside => by
    obtain ⟨here, below⟩ := List.forall_mem_cons.mp inside
    exact (e.pieces_failsOnly writable .projected here).bind fun _ =>
      (argsPieces_failsOnly writable rest below).bind fun _ => failsOnly_pure _

theorem branchesPieces_failsOnly (writable : ∀ n, Node.Inside root n → n.Writable native) :
    ∀ branches : List (Expr × Expr),
      (∀ branch ∈ branches,
        (∃ e, Node.Inside root (.expression e) ∧ branch.1 ∈ e.criteria) ∧
          Node.Inside root (.expression branch.1) ∧ Node.Inside root (.expression branch.2)) →
      FailsOnly (Refused native root) (branchesPieces native branches)
  | [], _ => failsOnly_ok _
  | (test, value) :: rest, inside => by
    obtain ⟨⟨⟨e, around, criterion⟩, insideTest, insideValue⟩, below⟩ :=
      List.forall_mem_cons.mp inside
    have ht := test.pieces_failsOnly writable .projected insideTest
    have hv := value.pieces_failsOnly writable .projected insideValue
    exact (failsOnly_criterion writable around criterion ht).bind fun _ => hv.bind fun _ =>
      (branchesPieces_failsOnly writable rest below).bind fun _ => failsOnly_pure _

theorem orderingsPieces_failsOnly (writable : ∀ n, Node.Inside root n → n.Writable native) :
    ∀ orderings : List Ordering, (∀ o ∈ orderings, Node.Inside root (.expression o.expression)) →
      FailsOnly (Refused native root) (orderingsPieces native orderings)
  | [], _ => failsOnly_ok _
  | ⟨e, direction⟩ :: rest, inside => by
    obtain ⟨here, below⟩ := List.forall_mem_cons.mp inside
    exact (e.pieces_failsOnly writable .projected here).bind fun _ =>
      (orderingsPieces_failsOnly writable rest below).bind fun _ => failsOnly_pure _

theorem membersPieces_failsOnly (writable : ∀ n, Node.Inside root n → n.Writable native) :
    ∀ (members : List Named) (listing : Listing),
      (∀ n ∈ members, Node.Inside root (.expression n.expression)) →
      FailsOnly (Refused native root) (membersPieces native listing members)
  | [], _, _ => failsOnly_ok _
  | ⟨name, e⟩ :: rest, listing, inside => by
    obtain ⟨here, below⟩ := List.forall_mem_cons.mp inside
    have later := membersPieces_failsOnly writable rest listing below
    cases listing with
    | grouped =>
      exact (e.pieces_failsOnly writable .grouped here).bind fun _ =>
        later.bind fun _ => failsOnly_pure _
    | projected =>
      exact (failsOnly_namedPieces (e.pieces_failsOnly writable .projected here)).bind fun _ =>
        later.bind fun _ => failsOnly_pure _

theorem Source.pieces_failsOnly (writable : ∀ n, Node.Inside root n → n.Writable native) :
    ∀ source : Source, source.kinds = [] →
      (∀ s, source.statement? = some s → Node.Inside root (.statement s)) →
      FailsOnly (Refused native root) (source.pieces native)
  | .table _ _ _, _, _ => failsOnly_ok _
  | .statement _ s, _, inside =>
    (s.pieces_failsOnly writable true (inside s rfl)).bind fun _ => failsOnly_pure _
  | .unresolved _, mapped, _ => nomatch mapped

theorem joinsPieces_failsOnly (writable : ∀ n, Node.Inside root n → n.Writable native) :
    ∀ joins : List Join,
      (∀ link ∈ joinLinks joins, link.kinds = [] ∧ ∀ n ∈ Node.ofLink link, Node.Inside root n) →
      FailsOnly (Refused native root) (joinsPieces native joins)
  | [], _ => failsOnly_ok _
  | ⟨_, _, .unresolved _ _, _⟩ :: _, inside => nomatch (inside _ List.mem_cons_self).1
  | ⟨_, _, .resolved source leftKey rightKey, joins⟩ :: rest, inside => by
    rw [joinLinks, Join.links, List.cons_append, List.forall_mem_cons, List.forall_mem_append] at inside
    obtain ⟨⟨mapped, here⟩, below, later⟩ := inside
    have hs := source.pieces_failsOnly writable mapped fun s nested => here _ (by
      simp [Node.ofLink, nested])
    have hl := leftKey.pieces_failsOnly writable .projected (here _ (by simp [Node.ofLink]))
    have hr := rightKey.pieces_failsOnly writable .projected (here _ (by simp [Node.ofLink]))
    exact hs.bind fun _ => hl.bind fun _ => hr.bind fun _ =>
      (joinsPieces_failsOnly writable joins below).bind fun _ =>
        (joinsPieces_failsOnly writable rest later).bind fun _ => failsOnly_pure _

theorem tablesPieces_failsOnly (writable : ∀ n, Node.Inside root n → n.Writable native) :
    ∀ tables : List Table,
      (∀ table ∈ tables, table.source.kinds = [] ∧
        ∀ s, table.source.statement? = some s → Node.Inside root (.statement s)) →
      (∀ link ∈ tableLinks tables, link.kinds = [] ∧ ∀ n ∈ Node.ofLink link, Node.Inside root n) →
      FailsOnly (Refused native root) (tablesPieces native tables)
  | [], _, _ => failsOnly_ok _
  | ⟨key, source, kind, joins⟩ :: rest, sources, links => by
    rw [tableLinks_cons, List.forall_mem_append] at links
    obtain ⟨here, below⟩ := List.forall_mem_cons.mp sources
    exact (source.pieces_failsOnly writable here.1 here.2).bind fun _ =>
      (joinsPieces_failsOnly writable joins links.1).bind fun _ =>
        (tablesPieces_failsOnly writable rest below links.2).bind fun _ => failsOnly_pure _

/-- Writing a statement fails for the one reason only. -/
theorem Statement.pieces_failsOnly (writable : ∀ n, Node.Inside root n → n.Writable native) :
    ∀ (s : Statement) (nested : Bool), Node.Inside root (.statement s) →
      FailsOnly (Refused native root) (s.pieces native nested)
  | ⟨projection, tables, condition, grouping, orderings, top, isDistinct, rowNumber, rowOffset,
      shape⟩, nested, inside => by
    obtain ⟨sources, links, predicate⟩ := writable _ inside
    have clause (position : Position) {e : Expr} (h : (position, e) ∈ Statement.clauses _) :=
      inside.clause h
    have ht := optionPieces_failsOnly writable top .projected fun e he =>
      clause .singleValue (by simp [Statement.clauses, he])
    have hp := projection.pieces_failsOnly writable .projected inside.projection
    have hf := tablesPieces_failsOnly writable tables
      (fun table mem => ⟨sources table mem, fun s hs => inside.source mem hs⟩)
      fun link mem => ⟨links link mem, fun n hn => inside.link mem hn⟩
    have hc := conditionPieces_failsOnly writable condition fun c hc =>
      ⟨clause .predicate (by simp [Statement.clauses, hc]), fun b => predicate b c hc⟩
    have hg := optionPieces_failsOnly writable grouping .grouped fun e he =>
      clause .value (by simp [Statement.clauses, he])
    have ho := orderingsPieces_failsOnly writable orderings fun o mem => clause .singleValue (by
      have : (Position.singleValue, o.expression) ∈
        orderings.map fun o => (Position.singleValue, o.expression) := List.mem_map_of_mem mem
      simp [Statement.clauses, this])
    refine ht.bind fun _ => hp.bind fun _ => hf.bind fun _ => hc.bind fun _ => hg.bind fun _ => ?_
    by_cases unordered : (nested && !top.isSome) = true
    · rw [if_pos unordered]
      exact failsOnly_pure _
    · rw [if_neg unordered]
      exact ho.bind fun _ => failsOnly_pure _

theorem conditionPieces_failsOnly (writable : ∀ n, Node.Inside root n → n.Writable native) :
    ∀ e : Option Expr, (∀ c, e = some c → Node.Inside root (.expression c) ∧
        (native = false → c.isPredicate = true)) →
      FailsOnly (Refused native root) (conditionPieces native e)
  | none, _ => failsOnly_ok _
  | some e, inside => by
    obtain ⟨here, predicate⟩ := inside e rfl
    have he := e.pieces_failsOnly writable .projected here
    refine FailsOnly.bind (failsOnly_predicatePieces he fun notNative notPredicate => ?_)
      fun _ => failsOnly_pure _
    rw [predicate notNative] at notPredicate
    cases notPredicate

end

variable {schema : Schema}

/-- Whether a statement is written as a command is a matter of its conditions alone. -/
theorem Statement.command_failsOnly {s : Statement} {offer : Offer} (dialect : Dialect)
    (mapped : (Node.statement s).Mapped schema native offer) :
    FailsOnly (Refused native (.statement s)) (s.command dialect native) := by
  have writable (n : Node) (inside : Node.Inside (.statement s) n) : n.Writable native := by
    obtain ⟨offer', here⟩ := mapped.inside inside
    exact here.writable
  exact (s.pieces_failsOnly writable false .root).bind fun _ => failsOnly_pure _

end Sql

namespace Query.Model

open Command (Dialect)
open Method.Registry (defaults)
open Sql (Node Statement)

variable {schema : Schema} {options : Options} {m : Model} {s : Statement} {f₀ f : Fresh}

/-- Nothing is left in a compiled statement, at any depth, that a mapping has to replace. With
boolean values it can always be written as a command. Without them the only obstacle is an operand
of a connective, or a test of a case, that is not boolean. -/
theorem statement_writable
    (h : m.statement defaults (Mapping.ofSchema schema) options f₀ = .ok (s, f)) (dialect : Dialect) :
    (∀ n, Node.Inside (.statement s) n → ∀ kind ∈ n.kinds, kind.isUnresolved = false) ∧
      (∀ kind why, s.command dialect options.nativeBoolean ≠
        .error (.unsupportedExpression kind why)) ∧
      (options.nativeBoolean = true → ∃ c, s.command dialect options.nativeBoolean = .ok c) ∧
      (options.nativeBoolean = false → ∀ error,
        s.command dialect options.nativeBoolean = .error error →
        ∃ e operand, Node.Inside (.statement s) (.expression e) ∧ operand ∈ e.criteria ∧
          operand.type.isBoolean = false ∧ error = .unsupportedCriterion operand.kind) := by
  have mapped := mapped_of_statement h
  have fails := Statement.command_failsOnly dialect mapped
  refine ⟨fun n inside => ?_, fun kind why refused => ?_, fun native => ?_,
    fun _ error refused => (fails error refused).2⟩
  · obtain ⟨offer, here⟩ := mapped.inside inside
    exact here.writable.kinds
  · obtain ⟨-, e, operand, -, -, -, criterion⟩ := fails _ refused
    cases criterion
  · cases written : s.command dialect options.nativeBoolean with
    | ok c => exact ⟨c, rfl⟩
    | error e =>
      have notNative := (fails e written).1
      rw [native] at notNative
      cases notNative

/-- Cooks selected by a name in the place of a condition. -/
def namedCooks : Model :=
  let name : Expr := .member (.item "c" (.entity "Cook")) "FirstName" .string
  { main := .table "c" "Cook"
    clauses := [.filter (.not name)]
    yield := .select name
    operators := [] }

theorem namedCooks_refused :
    ∃ s f, namedCooks.statement defaults (Mapping.ofSchema .restaurant) {} {} = .ok (s, f) ∧
      s.command .sqlServer false = .error (.unsupportedCriterion .column) ∧
      ∃ e operand, Node.Inside (.statement s) (.expression e) ∧ operand ∈ e.criteria ∧
        operand.type.isBoolean = false ∧ operand.kind = .column := by
  have refused : (namedCooks.statement defaults (Mapping.ofSchema .restaurant) {} {}).toOption.any
      (fun result => Outcome.error? (result.1.command .sqlServer false) =
        some (.unsupportedCriterion .column)) = true := by
    decide +kernel
  obtain ⟨⟨s, f⟩, compiled, refused⟩ := Outcome.exists_of_any refused
  have error := Outcome.error?_eq_some.mp (of_decide_eq_true refused)
  obtain ⟨e, operand, inside, criterion, type, kind⟩ :=
    (statement_writable compiled .sqlServer).2.2.2 rfl _ error
  exact ⟨s, f, compiled, error, e, operand, inside, criterion, type,
    (Error.unsupportedCriterion.inj kind).symm⟩

end Query.Model

end Comprehension
