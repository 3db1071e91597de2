import Comprehension.Proofs.Masking.Sql
import Comprehension.Proofs.Methods
import Comprehension.Proofs.Outcome

/-!
Methods do not look at the values of constants, but for the language of a full-text search.
-/
namespace Comprehension

open Sql (Expr Call argsMasked)

namespace Sql

namespace Expr

theorem masked_binaryOf (op : BinaryOp) (left right : Expr) :
    (binaryOf op left right).masked = binaryOf op left.masked right.masked := by
  simp [binaryOf, masked]

theorem masked_valueFunction (name : String) (args : List Expr) (type : ValueType) :
    (valueFunction name args type).masked = valueFunction name (args.map masked) type := by
  simp [valueFunction, masked, argsMasked_eq]

theorem masked_predicateFunction (name : String) (args : List Expr) :
    (predicateFunction name args).masked = predicateFunction name (args.map masked) := by
  simp [predicateFunction, masked, argsMasked_eq]

theorem masked_caseWhen (test ifTrue ifFalse : Expr) :
    (caseWhen test ifTrue ifFalse).masked = caseWhen test.masked ifTrue.masked ifFalse.masked := by
  simp [caseWhen, masked, branchesMasked, optionMasked]

end Expr

/-- Calls that differ in the values of constants, and in how the query writes them. -/
structure Call.Alike (c c' : Call) : Prop where
  signature : c.signature = c'.signature
  object : c.object.map Expr.masked = c'.object.map Expr.masked
  arguments : c.arguments.map Expr.masked = c'.arguments.map Expr.masked
  type : c.type = c'.type

namespace Call.Alike

variable {c c' : Call}

theorem instance? (h : c.Alike c') :
    Outcome.Agree (fun a b => a.masked = b.masked) c.instance? c'.instance? := by
  have ho := h.object
  unfold Call.instance?
  cases hc : c.object <;> cases hc' : c'.object <;> simp only [hc, hc', Option.map_none,
    Option.map_some, Option.some.injEq, reduceCtorEq] at ho
  · exact .error _ _
  · exact .ok ho

/-- The argument of an index, or none in either call. -/
theorem argument? (h : c.Alike c') (index : Nat) :
    Option.Rel (fun a b => a.masked = b.masked) c.arguments[index]? c'.arguments[index]? := by
  have ha : (c.arguments[index]?).map Expr.masked = (c'.arguments[index]?).map Expr.masked := by
    rw [← List.getElem?_map, ← List.getElem?_map, h.arguments]
  cases hc : c.arguments[index]? <;> cases hc' : c'.arguments[index]? <;> simp only [hc, hc',
    Option.map_none, Option.map_some, Option.some.injEq, reduceCtorEq] at ha
  · exact .none
  · exact .some ha

theorem argument (h : c.Alike c') (index : Nat) :
    Outcome.Agree (fun a b => a.masked = b.masked) (c.argument index) (c'.argument index) := by
  have ha := h.argument? index
  unfold Call.argument
  generalize c.arguments[index]? = a, c'.arguments[index]? = a' at ha
  cases ha with
  | none => exact .error _ _
  | some ha => exact .ok ha

end Call.Alike

end Sql

namespace Method

/-- Whether a transformer makes the same of calls that differ in the values of constants, given
that no full-text search has a language. -/
def Transformer.Blind (signature : Signature) (t : Transformer) : Prop :=
  ∀ c c' : Call, c.Alike c' → (signature.declaringType = "FullText" → c.arguments.length ≤ 2) →
    Outcome.Agree (fun a b => a.masked = b.masked) (t c) (t c')

namespace Transformer.Blind

/-- A method of its object alone. -/
theorem ofInstance {build : Expr → Expr} (h : ∀ value, (build value).masked = build value.masked)
    (s : Signature) : Blind s (fun c => do return build (← c.instance?)) := by
  intro c c' alike _
  refine .bind alike.instance? fun value value' hv => .ok ?_
  rw [h, h, hv]

/-- A method of its object and an amount. -/
theorem ofAmount {build : Expr → Expr → Expr}
    (h : ∀ amount value, (build amount value).masked = build amount.masked value.masked)
    (s : Signature) :
    Blind s (fun c => do
      let amount ← c.argument 0
      return build amount (← c.instance?)) := by
  intro c c' alike _
  refine .bind (alike.argument 0) fun amount amount' ha => ?_
  refine .bind alike.instance? fun value value' hv => .ok ?_
  rw [h, h, ha, hv]

end Transformer.Blind

open Sql.Expr (masked_binaryOf masked_valueFunction masked_predicateFunction masked_caseWhen)

namespace Strings

theorem masked_length (value : Expr) : (length value).masked = length value.masked := by
  simp [length, Expr.subtract, Expr.concat, Expr.text, Expr.int, masked_binaryOf,
    masked_valueFunction, Expr.masked]

theorem masked_oneBased (index : Expr) : (oneBased index).masked = oneBased index.masked := by
  simp [oneBased, Expr.add, Expr.int, masked_binaryOf, Expr.masked]

theorem masked_lengthOrRest {c c' : Call} (h : c.Alike c') {value value' start start' : Expr}
    (hv : value.masked = value'.masked) (hs : start.masked = start'.masked) :
    (lengthOrRest c value start).masked = (lengthOrRest c' value' start').masked := by
  have ha := h.argument? 1
  unfold lengthOrRest
  generalize c.arguments[1]? = a, c'.arguments[1]? = a' at ha
  cases ha with
  | some ha => exact ha
  | none => simp [Expr.subtract, masked_binaryOf, masked_length, hv, hs]

theorem substring_blind (s : Signature) : Transformer.Blind s substring := by
  intro c c' h _
  refine .bind h.instance? fun value value' hv => ?_
  refine .bind (h.argument 0) fun start start' hs => ?_
  refine .ok ?_
  simp [masked_valueFunction, masked_oneBased, masked_lengthOrRest h hv hs, hv, hs]

theorem remove_blind (s : Signature) : Transformer.Blind s remove := by
  intro c c' h _
  refine .bind h.instance? fun value value' hv => ?_
  refine .bind (h.argument 0) fun start start' hs => ?_
  refine .ok ?_
  simp [masked_valueFunction, masked_oneBased, masked_lengthOrRest h hv hs, hv, hs]

theorem toUpper_blind (s : Signature) : Transformer.Blind s toUpper :=
  .ofInstance (fun value => by simp [masked_valueFunction]) s

theorem toLower_blind (s : Signature) : Transformer.Blind s toLower :=
  .ofInstance (fun value => by simp [masked_valueFunction]) s

theorem trim_blind (s : Signature) : Transformer.Blind s trim :=
  .ofInstance (fun value => by simp [masked_valueFunction]) s

theorem lengthOf_blind (s : Signature) : Transformer.Blind s lengthOf :=
  .ofInstance masked_length s

theorem masked_indexIn (text value : Expr) (start count : Option Expr) :
    (indexIn text value start count).masked =
      indexIn text.masked value.masked (start.map Expr.masked) (count.map Expr.masked) := by
  cases start <;> cases count <;>
    simp [indexIn, masked_caseWhen, masked_valueFunction, masked_length, masked_oneBased,
      Expr.subtract, Expr.equal, Expr.add, Expr.and, Expr.int, masked_binaryOf, Expr.masked]

theorem indexOf_blind (s : Signature) : Transformer.Blind s indexOf := by
  intro c c' h _
  refine .bind h.instance? fun text text' ht => ?_
  refine .bind (h.argument 0) fun value value' hv => .ok ?_
  rw [masked_indexIn, masked_indexIn, ht, hv]
  simp only [← List.getElem?_map, h.arguments]

theorem insert_blind (s : Signature) : Transformer.Blind s insert := by
  intro c c' h _
  refine .bind h.instance? fun text text' ht => ?_
  refine .bind (h.argument 0) fun index index' hi => ?_
  refine .bind (h.argument 1) fun value value' hv => .ok ?_
  simp [masked_caseWhen, masked_valueFunction, masked_length, masked_oneBased, Expr.equal,
    Expr.concat, masked_binaryOf, ht, hi, hv]

theorem methods_blind : ∀ method ∈ methods, Transformer.Blind method.1 method.2 := by
  simp only [methods, List.forall_mem_cons, substring_blind, remove_blind, toUpper_blind,
    toLower_blind, trim_blind, indexOf_blind, insert_blind, lengthOf_blind]
  simp

end Strings

namespace Pattern

theorem masked_expression (anchor : Anchor) (e : Expr) :
    (anchor.expression e).masked = anchor.expression e.masked := by
  cases anchor <;> simp [Anchor.expression, Expr.concat, Expr.text, masked_binaryOf, Expr.masked]

/-- A pattern is escaped, but what is searched depends on the variant of a constant only. -/
theorem masked_searched (anchor : Anchor) (value pattern : Expr) :
    (searched anchor value pattern).masked =
      match pattern.masked with
      | .constant .null _ => .constant (.bool false) .boolean
      | .constant (.string _) _ => .like value.masked (.constant (.string "") .string)
      | pattern => .like value.masked (anchor.expression (.likeEscape pattern)) := by
  cases pattern with
  | constant v type =>
    cases v <;> simp [searched, Expr.masked, Value.masked, masked_expression]
  | named n => simp [searched, Expr.masked, masked_expression]
  | _ => simp [searched, Expr.masked, masked_expression]

theorem search_blind (anchor : Anchor) (s : Signature) : Transformer.Blind s (search anchor) := by
  intro c c' h _
  rw [search_eq, search_eq]
  refine .bind h.instance? fun value value' hv => ?_
  refine .bind (h.argument 0) fun pattern pattern' hp => .ok ?_
  rw [masked_searched, masked_searched, hv, hp]

theorem methods_blind : ∀ method ∈ methods, Transformer.Blind method.1 method.2 := by
  simp only [methods, List.forall_mem_cons, search_blind]
  simp

end Pattern

namespace Dates

theorem masked_dateAdd (unit : String) (amount date : Expr) :
    (dateAdd unit amount date).masked = dateAdd unit amount.masked date.masked := by
  simp [dateAdd, part, masked_valueFunction, Expr.masked]

theorem masked_addMilliseconds (date milliseconds : Expr) :
    (addMilliseconds date milliseconds).masked = addMilliseconds date.masked milliseconds.masked := by
  simp [addMilliseconds, masked_dateAdd, masked_binaryOf, Expr.int, Expr.masked]

theorem addUnits_blind (factor : Int) (s : Signature) : Transformer.Blind s (addUnits factor) :=
  .ofAmount (fun amount date => by
    simp [masked_addMilliseconds, masked_binaryOf, Expr.int, Expr.masked]) s

theorem addTicks_blind (s : Signature) : Transformer.Blind s addTicks :=
  .ofAmount (fun amount date => by
    simp [masked_addMilliseconds, masked_binaryOf, Expr.int, Expr.masked]) s

theorem addCalendar_blind (unit : String) (s : Signature) :
    Transformer.Blind s (addCalendar unit) :=
  .ofAmount (masked_dateAdd unit) s

theorem datePart_blind (name : String) (s : Signature) : Transformer.Blind s (datePart name) :=
  .ofInstance (fun date => by simp [masked_valueFunction, part, Expr.masked]) s

theorem methods_blind : ∀ method ∈ methods, Transformer.Blind method.1 method.2 := by
  simp only [methods, List.forall_mem_cons, addUnits_blind, addTicks_blind, addCalendar_blind,
    datePart_blind]
  simp

end Dates

namespace Conversion

theorem convert_blind (s : Signature) : Transformer.Blind s convert := by
  intro c c' h _
  unfold convert
  rw [h.type]
  cases sqlType? c'.type with
  | none => exact .error _ _
  | some target =>
    refine .bind (h.argument 0) fun value value' hv => .ok ?_
    simp [Expr.masked, hv]

theorem methods_blind : ∀ method ∈ methods, Transformer.Blind method.1 method.2 := by
  intro method h
  obtain ⟨target, -, h⟩ := List.mem_flatMap.mp h
  obtain ⟨source, -, rfl⟩ := List.mem_map.mp h
  exact convert_blind _

end Conversion

namespace FullText

/-- Without a language, a full-text search does not look at values either. -/
theorem search_blind (function name : String) (parameters : List String) :
    Transformer.Blind (.method "FullText" name parameters) (search function) := by
  intro c c' h short
  have hc : c.arguments[2]? = none := List.getElem?_eq_none (short rfl)
  have hc' : c'.arguments[2]? = none := by
    have ha := h.argument? 2
    rw [hc] at ha
    generalize c'.arguments[2]? = a at ha
    cases ha
    rfl
  refine .bind (h.argument 0) fun column column' hl => ?_
  refine .bind (h.argument 1) fun condition condition' hr => ?_
  rw [hc, hc']
  refine .ok ?_
  simp [masked_predicateFunction, hl, hr]

theorem methods_blind : ∀ method ∈ methods, Transformer.Blind method.1 method.2 := by
  intro method h
  obtain ⟨⟨name, function⟩, -, h⟩ := List.mem_flatMap.mp h
  obtain ⟨parameters, -, rfl⟩ := List.mem_map.mp h
  exact search_blind function name parameters

end FullText

namespace Equality

theorem equals_blind (s : Signature) : Transformer.Blind s equals := by
  intro c c' h _
  have ho := h.object
  unfold equals
  cases hc : c.object <;> cases hc' : c'.object <;> simp only [hc, hc', Option.map_none,
    Option.map_some, Option.some.injEq, reduceCtorEq] at ho
  · refine .bind (h.argument 0) fun left left' hl => ?_
    refine .bind (h.argument 1) fun right right' hr => .ok ?_
    simp [Expr.equal, masked_binaryOf, hl, hr]
  · refine .bind (h.argument 0) fun right right' hr => .ok ?_
    simp [Expr.equal, masked_binaryOf, ho, hr]

theorem methods_blind : ∀ method ∈ methods, Transformer.Blind method.1 method.2 := by
  intro method h
  obtain ⟨type, -, h⟩ := List.mem_flatMap.mp h
  obtain ⟨parameters, -, rfl⟩ := List.mem_map.mp h
  exact equals_blind _

end Equality

/-- The built-in methods make the same of calls that differ in the values of constants. -/
theorem Registry.transform_blind {c c' : Call} (h : c.Alike c')
    (short : c.signature.declaringType = "FullText" → c.arguments.length ≤ 2) :
    Outcome.Agree (fun a b => a.masked = b.masked) (defaults.transform c)
      (defaults.transform c') := by
  unfold transform
  rw [← h.signature]
  cases found : defaults.get? c.signature with
  | none => exact .error _ _
  | some transformer =>
    have mem := mem_builtIn found
    simp only [builtIn, List.mem_append] at mem
    have blind : Transformer.Blind c.signature transformer := by
      rcases mem with ((((mem | mem) | mem) | mem) | mem) | mem
      · exact Strings.methods_blind _ mem
      · exact Pattern.methods_blind _ mem
      · exact Dates.methods_blind _ mem
      · exact Conversion.methods_blind _ mem
      · exact FullText.methods_blind _ mem
      · exact Equality.methods_blind _ mem
    exact blind c c' h short

end Method

end Comprehension
