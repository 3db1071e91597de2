import Comprehension.Query.Basic

/-!
Queries without the values of their constants. A masked query keeps which constants are null, which
truth value a boolean has and of which variant every other value is, and nothing more: two queries
have the same mask when they differ at most in the values of corresponding constants.
-/
namespace Comprehension

/-- One value for all of a variant. Null and booleans stand for themselves, and a domain object
keeps its type. -/
def Value.masked : Value → Value
  | null => null
  | bool b => bool b
  | int _ => int 0
  | float _ => float ⟨0⟩
  | string _ => string ""
  | char _ => char ' '
  | date _ => date ⟨1, 1, 1, by decide⟩
  | dateTime _ => dateTime ⟨⟨1, 1, 1, by decide⟩, ⟨0, 0, 0, 0, by decide⟩⟩
  | entity typeName id => entity typeName id.masked

@[simp] theorem Value.masked_masked (v : Value) : v.masked.masked = v.masked := by
  induction v with
  | entity typeName id ih => simp [masked, ih]
  | _ => rfl

@[simp] theorem Value.isNull_masked (v : Value) : v.masked.isNull = v.isNull := by
  cases v <;> rfl

namespace Query

mutual

def Expr.masked : Expr → Expr
  | .constant value type => .constant value.masked type
  | .queryable itemType => .queryable itemType
  | .item name type => .item name type
  | .member source name type => .member source.masked name type
  | .binary op left right type => .binary op left.masked right.masked type
  | .not operand => .not operand.masked
  | .conditional test ifTrue ifFalse type =>
    .conditional test.masked ifTrue.masked ifFalse.masked type
  | .call object declaringType method parameterTypes arguments type =>
    .call (objectMasked object) declaringType method parameterTypes (argumentsMasked arguments) type
  | .record members => .record (membersMasked members)
  | .subQuery model => .subQuery model.masked

def objectMasked : Option Expr → Option Expr
  | none => none
  | some e => some e.masked

def argumentsMasked : List Expr → List Expr
  | [] => []
  | e :: rest => e.masked :: argumentsMasked rest

def membersMasked : List (String × Expr) → List (String × Expr)
  | [] => []
  | (name, e) :: rest => (name, e.masked) :: membersMasked rest

def orderingsMasked : List Ordering → List Ordering
  | [] => []
  | ⟨e, direction⟩ :: rest => ⟨e.masked, direction⟩ :: orderingsMasked rest

def Source.masked : Source → Source
  | ⟨itemName, itemType, source⟩ => ⟨itemName, itemType, source.masked⟩

def Clause.masked : Clause → Clause
  | .source source => .source source.masked
  | .filter predicate => .filter predicate.masked
  | .orderBy orderings => .orderBy (orderingsMasked orderings)
  | .bind name e => .bind name e.masked
  | .keyJoin itemName itemType inner outerKey innerKey =>
    .keyJoin itemName itemType inner.masked outerKey.masked innerKey.masked
  | .groupJoin itemName inner => .groupJoin itemName inner.masked

def clausesMasked : List Clause → List Clause
  | [] => []
  | clause :: rest => clause.masked :: clausesMasked rest

def Yield.masked : Yield → Yield
  | .select selector => .select selector.masked
  | .group key element => .group key.masked element.masked

def Operator.masked : Operator → Operator
  | .take count => .take count.masked
  | .skip offset => .skip offset.masked
  | .count => .count
  | .longCount => .longCount
  | .first orDefault => .first orDefault
  | .single orDefault => .single orDefault
  | .distinct => .distinct
  | .min => .min
  | .max => .max
  | .sum => .sum
  | .average => .average
  | .other name => .other name

def operatorsMasked : List Operator → List Operator
  | [] => []
  | operator :: rest => operator.masked :: operatorsMasked rest

/-- The query without the values of its constants. -/
def Model.masked : Model → Model
  | ⟨main, clauses, yield, operators⟩ =>
    ⟨main.masked, clausesMasked clauses, yield.masked, operatorsMasked operators⟩

end

/-- Whether a call has more arguments than a full-text search without a language. -/
def namesLanguage (declaringType : String) (arguments : List Expr) : Bool :=
  declaringType = "FullText" ∧ 2 < arguments.length

mutual

def Expr.languageFree : Expr → Bool
  | .constant .. | .queryable _ | .item .. => true
  | .member e _ _ | .not e => e.languageFree
  | .binary _ left right _ => left.languageFree && right.languageFree
  | .conditional test ifTrue ifFalse _ =>
    test.languageFree && ifTrue.languageFree && ifFalse.languageFree
  | .call object declaringType _ _ arguments _ =>
    !namesLanguage declaringType arguments && objectLanguageFree object &&
      argumentsLanguageFree arguments
  | .record members => membersLanguageFree members
  | .subQuery model => model.languageFree

def objectLanguageFree : Option Expr → Bool
  | none => true
  | some e => e.languageFree

def argumentsLanguageFree : List Expr → Bool
  | [] => true
  | e :: rest => e.languageFree && argumentsLanguageFree rest

def membersLanguageFree : List (String × Expr) → Bool
  | [] => true
  | (_, e) :: rest => e.languageFree && membersLanguageFree rest

def orderingsLanguageFree : List Ordering → Bool
  | [] => true
  | ⟨e, _⟩ :: rest => e.languageFree && orderingsLanguageFree rest

def Source.languageFree : Source → Bool
  | ⟨_, _, source⟩ => source.languageFree

def Clause.languageFree : Clause → Bool
  | .source source => source.languageFree
  | .filter e | .bind _ e | .groupJoin _ e => e.languageFree
  | .orderBy orderings => orderingsLanguageFree orderings
  | .keyJoin _ _ inner outerKey innerKey =>
    inner.languageFree && outerKey.languageFree && innerKey.languageFree

def clausesLanguageFree : List Clause → Bool
  | [] => true
  | clause :: rest => clause.languageFree && clausesLanguageFree rest

def Yield.languageFree : Yield → Bool
  | .select selector => selector.languageFree
  | .group key element => key.languageFree && element.languageFree

def Operator.languageFree : Operator → Bool
  | .take e | .skip e => e.languageFree
  | _ => true

def operatorsLanguageFree : List Operator → Bool
  | [] => true
  | operator :: rest => operator.languageFree && operatorsLanguageFree rest

/-- Whether no full-text search of the query has a language, which is written into the text of the
command. -/
def Model.languageFree : Model → Bool
  | ⟨main, clauses, yield, operators⟩ =>
    main.languageFree && clausesLanguageFree clauses && yield.languageFree &&
      operatorsLanguageFree operators

end

end Query

end Comprehension
