import Comprehension.Prepared.Query
import Comprehension.Proofs.Outcome

/-!
How a preparation that succeeded went. Each lemma takes one form of the syntax and says what was
prepared for it, in which order, and what was put together of the results. What is refused at once
has no lemma.
-/
namespace Comprehension.Query

open Method (Registry)
open Supply (bind_eq_ok freshAlias freshKey lift_eq_ok pure_eq_ok throw_ne_ok)

section Expressions

variable {registry : Registry} {scope : Scope} {e' : Sql.Expr} {type : ValueType} {f f' : Fresh}

theorem Expr.prepare_item_eq_ok {name : String}
    (h : (Expr.item name type).prepare registry scope f = .ok (e', f')) :
    scope.lookup name = some e' ∧ f = f' := by
  rw [prepare] at h
  cases found : scope.lookup name with
  | none =>
    rw [found] at h
    exact (throw_ne_ok.mp h).elim
  | some e =>
    rw [found] at h
    obtain ⟨rfl, rfl⟩ := pure_eq_ok.mp h
    exact ⟨rfl, rfl⟩

theorem Expr.prepare_member_eq_ok {source : Expr} {name : String}
    (h : (Expr.member source name type).prepare registry scope f = .ok (e', f')) :
    ∃ source', source.prepare registry scope f = .ok (source', f') ∧
      preparedMember registry source' name type (Expr.member source name type).text = .ok e' := by
  obtain ⟨source', f₁, prepared, rest⟩ := bind_eq_ok.mp h
  obtain ⟨found, rfl⟩ := lift_eq_ok.mp rest
  exact ⟨source', prepared, found⟩

theorem Expr.prepare_binary_eq_ok {op : BinaryOp} {left right : Expr}
    (h : (Expr.binary op left right type).prepare registry scope f = .ok (e', f')) :
    ∃ left' f₁ right', left.prepare registry scope f = .ok (left', f₁) ∧
      right.prepare registry scope f₁ = .ok (right', f') ∧
      e' = op.prepared left' right' type := by
  obtain ⟨left', f₁, hl, rest⟩ := bind_eq_ok.mp h
  obtain ⟨right', f₂, hr, result⟩ := bind_eq_ok.mp rest
  obtain ⟨rfl, rfl⟩ := pure_eq_ok.mp result
  exact ⟨left', f₁, right', hl, hr, rfl⟩

theorem Expr.prepare_not_eq_ok {operand : Expr}
    (h : (Expr.not operand).prepare registry scope f = .ok (e', f')) :
    ∃ operand', operand.prepare registry scope f = .ok (operand', f') ∧ e' = .not operand' := by
  obtain ⟨operand', f₁, prepared, result⟩ := bind_eq_ok.mp h
  obtain ⟨rfl, rfl⟩ := pure_eq_ok.mp result
  exact ⟨operand', prepared, rfl⟩

theorem Expr.prepare_conditional_eq_ok {test ifTrue ifFalse : Expr}
    (h : (Expr.conditional test ifTrue ifFalse type).prepare registry scope f = .ok (e', f')) :
    ∃ test' f₁ ifTrue' f₂ ifFalse', test.prepare registry scope f = .ok (test', f₁) ∧
      ifTrue.prepare registry scope f₁ = .ok (ifTrue', f₂) ∧
      ifFalse.prepare registry scope f₂ = .ok (ifFalse', f') ∧
      e' = .case [(test', ifTrue')] (some ifFalse') type := by
  obtain ⟨test', f₁, ht, tested⟩ := bind_eq_ok.mp h
  obtain ⟨ifTrue', f₂, hi, chosen⟩ := bind_eq_ok.mp tested
  obtain ⟨ifFalse', f₃, he, result⟩ := bind_eq_ok.mp chosen
  obtain ⟨rfl, rfl⟩ := pure_eq_ok.mp result
  exact ⟨test', f₁, ifTrue', f₂, ifFalse', ht, hi, he, rfl⟩

theorem Expr.prepare_call_eq_ok {object : Option Expr} {declaringType method : String}
    {parameterTypes : List ValueType} {arguments : List Expr}
    (h : (Expr.call object declaringType method parameterTypes arguments type).prepare registry
      scope f = .ok (e', f')) :
    ∃ object' f₁ arguments', prepareObject registry scope object f = .ok (object', f₁) ∧
      prepareArguments registry scope arguments f₁ = .ok (arguments', f') ∧
      registry.transform
        { signature := .ofCall declaringType method parameterTypes
          object := object'
          arguments := arguments'
          type
          text := (Expr.call object declaringType method parameterTypes arguments type).text } =
        .ok e' := by
  obtain ⟨object', f₁, ho, onObject⟩ := bind_eq_ok.mp h
  obtain ⟨arguments', f₂, ha, rest⟩ := bind_eq_ok.mp onObject
  obtain ⟨transformed, rfl⟩ := lift_eq_ok.mp rest
  exact ⟨object', f₁, arguments', ho, ha, transformed⟩

theorem Expr.prepare_record_eq_ok {members : List (String × Expr)}
    (h : (Expr.record members).prepare registry scope f = .ok (e', f')) :
    ∃ members', prepareMembers registry scope members f = .ok (members', f') ∧
      e' = .compound members' := by
  obtain ⟨members', f₁, prepared, result⟩ := bind_eq_ok.mp h
  obtain ⟨rfl, rfl⟩ := pure_eq_ok.mp result
  exact ⟨members', prepared, rfl⟩

theorem Expr.prepare_subQuery_eq_ok {model : Model}
    (h : (Expr.subQuery model).prepare registry scope f = .ok (e', f')) :
    ∃ s, model.prepareIn registry scope f = .ok (s, f') ∧ e' = .subStatement s := by
  obtain ⟨s, f₁, prepared, result⟩ := bind_eq_ok.mp h
  obtain ⟨rfl, rfl⟩ := pure_eq_ok.mp result
  exact ⟨s, prepared, rfl⟩

theorem prepareObject_some_eq_ok {object : Expr} {object' : Option Sql.Expr}
    (h : prepareObject registry scope (some object) f = .ok (object', f')) :
    ∃ e, object.prepare registry scope f = .ok (e, f') ∧ object' = some e := by
  obtain ⟨e, f₁, prepared, result⟩ := bind_eq_ok.mp h
  obtain ⟨rfl, rfl⟩ := pure_eq_ok.mp result
  exact ⟨e, prepared, rfl⟩

theorem prepareArguments_cons_eq_ok {argument : Expr} {rest : List Expr}
    {arguments' : List Sql.Expr}
    (h : prepareArguments registry scope (argument :: rest) f = .ok (arguments', f')) :
    ∃ argument' f₁ rest', argument.prepare registry scope f = .ok (argument', f₁) ∧
      prepareArguments registry scope rest f₁ = .ok (rest', f') ∧
      arguments' = argument' :: rest' := by
  obtain ⟨argument', f₁, first, following⟩ := bind_eq_ok.mp h
  obtain ⟨rest', f₂, others, result⟩ := bind_eq_ok.mp following
  obtain ⟨rfl, rfl⟩ := pure_eq_ok.mp result
  exact ⟨argument', f₁, rest', first, others, rfl⟩

theorem prepareMembers_cons_eq_ok {name : String} {member : Expr} {rest : List (String × Expr)}
    {members' : List Sql.Named}
    (h : prepareMembers registry scope ((name, member) :: rest) f = .ok (members', f')) :
    ∃ member' f₁ rest', member.prepare registry scope f = .ok (member', f₁) ∧
      prepareMembers registry scope rest f₁ = .ok (rest', f') ∧
      members' = ⟨some name, member'⟩ :: rest' := by
  obtain ⟨member', f₁, first, following⟩ := bind_eq_ok.mp h
  obtain ⟨rest', f₂, others, result⟩ := bind_eq_ok.mp following
  obtain ⟨rfl, rfl⟩ := pure_eq_ok.mp result
  exact ⟨member', f₁, rest', first, others, rfl⟩

theorem prepareOrderings_cons_eq_ok {ordering : Ordering} {rest : List Ordering}
    {orderings' : List Sql.Ordering}
    (h : prepareOrderings registry scope (ordering :: rest) f = .ok (orderings', f')) :
    ∃ e f₁ rest', ordering.expression.prepare registry scope f = .ok (e, f₁) ∧
      prepareOrderings registry scope rest f₁ = .ok (rest', f') ∧
      orderings' = ⟨e, ordering.direction⟩ :: rest' := by
  obtain ⟨expression, direction⟩ := ordering
  obtain ⟨e, f₁, first, following⟩ := bind_eq_ok.mp h
  obtain ⟨rest', f₂, others, result⟩ := bind_eq_ok.mp following
  obtain ⟨rfl, rfl⟩ := pure_eq_ok.mp result
  exact ⟨e, f₁, rest', first, others, rfl⟩

end Expressions

section Clauses

variable {registry : Registry} {scope scope' : Scope} {body body' : Body} {f f' : Fresh}

theorem prepareRows_subQuery_eq_ok {model : Model} {itemName : String} {rows : Sql.Source}
    (h : prepareRows registry scope itemName (.subQuery model) f = .ok (rows, f')) :
    ∃ s f₁ tableAlias, model.prepareIn registry scope f = .ok (s, f₁) ∧
      freshAlias "q" f₁ = .ok (tableAlias, f') ∧ rows = .statement tableAlias s.asSource := by
  obtain ⟨s, f₁, prepared, named⟩ := bind_eq_ok.mp h
  obtain ⟨tableAlias, f₂, drawn, result⟩ := bind_eq_ok.mp named
  obtain ⟨rfl, rfl⟩ := pure_eq_ok.mp result
  exact ⟨s, f₁, tableAlias, prepared, drawn, rfl⟩

theorem Source.prepare_eq_ok {source : Source}
    (h : source.prepare registry scope body f = .ok ((scope', body'), f')) :
    ∃ key f₁ rows, freshKey f = .ok (key, f₁) ∧
      prepareRows registry scope source.itemName source.source f₁ = .ok (rows, f') ∧
      scope' = (source.itemName, .tableReference key rows.rowType) :: scope ∧
      body' = { body with tables := body.tables ++ [.ofSource key rows .inner] } := by
  obtain ⟨itemName, itemType, source⟩ := source
  obtain ⟨key, f₁, drawn, keyed⟩ := bind_eq_ok.mp h
  obtain ⟨rows, f₂, prepared, result⟩ := bind_eq_ok.mp keyed
  obtain ⟨same, rfl⟩ := pure_eq_ok.mp result
  obtain ⟨rfl, rfl⟩ := Prod.mk.inj same
  exact ⟨key, f₁, rows, drawn, prepared, rfl, rfl⟩

theorem Clause.prepare_filter_eq_ok {predicate : Expr}
    (h : (Clause.filter predicate).prepare registry scope body f = .ok ((scope', body'), f')) :
    ∃ condition, predicate.prepare registry scope f = .ok (condition, f') ∧ scope = scope' ∧
      body' = { body with condition := some (Sql.conjoined body.condition condition) } := by
  obtain ⟨condition, f₁, prepared, result⟩ := bind_eq_ok.mp h
  obtain ⟨same, rfl⟩ := pure_eq_ok.mp result
  obtain ⟨rfl, rfl⟩ := Prod.mk.inj same
  exact ⟨condition, prepared, rfl, rfl⟩

theorem Clause.prepare_orderBy_eq_ok {orderings : List Ordering}
    (h : (Clause.orderBy orderings).prepare registry scope body f = .ok ((scope', body'), f')) :
    ∃ sorting, prepareOrderings registry scope orderings f = .ok (sorting, f') ∧ scope = scope' ∧
      body' = { body with orderings := sorting ++ body.orderings } := by
  obtain ⟨sorting, f₁, prepared, result⟩ := bind_eq_ok.mp h
  obtain ⟨same, rfl⟩ := pure_eq_ok.mp result
  obtain ⟨rfl, rfl⟩ := Prod.mk.inj same
  exact ⟨sorting, prepared, rfl, rfl⟩

theorem Clause.prepare_bind_eq_ok {name : String} {e : Expr}
    (h : (Clause.bind name e).prepare registry scope body f = .ok ((scope', body'), f')) :
    ∃ e', e.prepare registry scope f = .ok (e', f') ∧ scope' = (name, e') :: scope ∧
      body = body' := by
  obtain ⟨e', f₁, prepared, result⟩ := bind_eq_ok.mp h
  obtain ⟨same, rfl⟩ := pure_eq_ok.mp result
  obtain ⟨rfl, rfl⟩ := Prod.mk.inj same
  exact ⟨e', prepared, rfl, rfl⟩

end Clauses

section Statements

variable {registry : Registry} {scope : Scope} {body : Body} {s t : Sql.Statement} {f f' : Fresh}

theorem Yield.prepare_select_eq_ok {selector : Expr}
    (h : (Yield.select selector).prepare registry scope body f = .ok (s, f')) :
    ∃ projection, selector.prepare registry scope f = .ok (projection, f') ∧
      s = body.statement projection none := by
  obtain ⟨projection, f₁, prepared, result⟩ := bind_eq_ok.mp h
  obtain ⟨rfl, rfl⟩ := pure_eq_ok.mp result
  exact ⟨projection, prepared, rfl⟩

theorem Yield.prepare_group_eq_ok {key element : Expr}
    (h : (Yield.group key element).prepare registry scope body f = .ok (s, f')) :
    ∃ projection, key.prepare registry scope f = .ok (projection, f') ∧
      s = body.statement projection (some projection) := by
  obtain ⟨projection, f₁, prepared, result⟩ := bind_eq_ok.mp h
  obtain ⟨rfl, rfl⟩ := pure_eq_ok.mp result
  exact ⟨projection, prepared, rfl⟩

theorem prepareOperators_cons_eq_ok {operator : Operator} {rest : List Operator}
    (h : prepareOperators registry scope s (operator :: rest) f = .ok (t, f')) :
    ∃ u f₁, operator.prepare registry scope s f = .ok (u, f₁) ∧
      prepareOperators registry scope u rest f₁ = .ok (t, f') := by
  obtain ⟨_, f₁, required, h⟩ := bind_eq_ok.mp h
  obtain ⟨-, rfl⟩ := lift_eq_ok.mp required
  exact bind_eq_ok.mp h

/-- The clauses, the selection and the operators come one after the other; the check at the end
changes nothing. -/
theorem Model.prepareIn_mk_eq_ok {main : Source} {clauses : List Clause} {yield : Yield}
    {operators : List Operator}
    (h : Model.prepareIn registry scope ⟨main, clauses, yield, operators⟩ f = .ok (s, f')) :
    ∃ scope₁ body₁ f₁ scope₂ body₂ f₂ t f₃,
      main.prepare registry scope ⟨[], none, []⟩ f = .ok ((scope₁, body₁), f₁) ∧
      prepareClauses registry scope₁ body₁ clauses f₁ = .ok ((scope₂, body₂), f₂) ∧
      yield.prepare registry scope₂ body₂ f₂ = .ok (t, f₃) ∧
      prepareOperators registry scope₂ t operators f₃ = .ok (s, f') := by
  obtain ⟨⟨scope₁, body₁⟩, f₁, hm, withSource⟩ := bind_eq_ok.mp h
  obtain ⟨⟨scope₂, body₂⟩, f₂, hc, withClauses⟩ := bind_eq_ok.mp withSource
  obtain ⟨t, f₃, hy, selected⟩ := bind_eq_ok.mp withClauses
  obtain ⟨t', f₄, ho, checked⟩ := bind_eq_ok.mp selected
  obtain ⟨same, rfl⟩ := lift_eq_ok.mp checked
  obtain rfl := Sql.Statement.checked_eq_ok same
  exact ⟨scope₁, body₁, f₁, scope₂, body₂, f₂, t, f₃, hm, hc, hy, ho⟩

end Statements

end Comprehension.Query
