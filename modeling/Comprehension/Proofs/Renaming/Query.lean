import Comprehension.Query.Basic

/-!
Queries under other names. Items and lets are renamed where they are bound and where they are
referred to, in nested queries as well; the names of members and of the fields of a record are not
names of the query.
-/
namespace Comprehension.Query

mutual

def Expr.rename (ρ : String → String) : Expr → Expr
  | .constant value type => .constant value type
  | .queryable itemType => .queryable itemType
  | .item name type => .item (ρ name) type
  | .member source name type => .member (source.rename ρ) name type
  | .binary op left right type => .binary op (left.rename ρ) (right.rename ρ) type
  | .not operand => .not (operand.rename ρ)
  | .conditional test ifTrue ifFalse type =>
    .conditional (test.rename ρ) (ifTrue.rename ρ) (ifFalse.rename ρ) type
  | .call object declaringType method parameterTypes arguments type =>
    .call (renameObject ρ object) declaringType method parameterTypes (renameArguments ρ arguments)
      type
  | .record members => .record (renameMembers ρ members)
  | .subQuery model => .subQuery (model.rename ρ)

def renameObject (ρ : String → String) : Option Expr → Option Expr
  | none => none
  | some e => some (e.rename ρ)

def renameArguments (ρ : String → String) : List Expr → List Expr
  | [] => []
  | e :: rest => e.rename ρ :: renameArguments ρ rest

def renameMembers (ρ : String → String) : List (String × Expr) → List (String × Expr)
  | [] => []
  | (name, e) :: rest => (name, e.rename ρ) :: renameMembers ρ rest

def renameOrderings (ρ : String → String) : List Ordering → List Ordering
  | [] => []
  | ⟨e, direction⟩ :: rest => ⟨e.rename ρ, direction⟩ :: renameOrderings ρ rest

def Source.rename (ρ : String → String) : Source → Source
  | ⟨itemName, itemType, source⟩ => ⟨ρ itemName, itemType, source.rename ρ⟩

def Clause.rename (ρ : String → String) : Clause → Clause
  | .source source => .source (source.rename ρ)
  | .filter predicate => .filter (predicate.rename ρ)
  | .orderBy orderings => .orderBy (renameOrderings ρ orderings)
  | .bind name e => .bind (ρ name) (e.rename ρ)
  | .keyJoin itemName itemType inner outerKey innerKey =>
    .keyJoin (ρ itemName) itemType (inner.rename ρ) (outerKey.rename ρ) (innerKey.rename ρ)
  | .groupJoin itemName inner => .groupJoin (ρ itemName) (inner.rename ρ)

def renameClauses (ρ : String → String) : List Clause → List Clause
  | [] => []
  | clause :: rest => clause.rename ρ :: renameClauses ρ rest

def Yield.rename (ρ : String → String) : Yield → Yield
  | .select selector => .select (selector.rename ρ)
  | .group key element => .group (key.rename ρ) (element.rename ρ)

def Operator.rename (ρ : String → String) : Operator → Operator
  | .take count => .take (count.rename ρ)
  | .skip offset => .skip (offset.rename ρ)
  | .count => .count
  | .longCount => .longCount
  | .first orDefault => .first orDefault
  | .single orDefault => .single orDefault
  | .distinct => .distinct
  | .min => .min
  | .max => .max
  | .sum => .sum
  | .average => .average
  | .other name => .other name

def renameOperators (ρ : String → String) : List Operator → List Operator
  | [] => []
  | operator :: rest => operator.rename ρ :: renameOperators ρ rest

/-- The query with other names for its items and lets. -/
def Model.rename (ρ : String → String) : Model → Model
  | ⟨main, clauses, yield, operators⟩ =>
    ⟨main.rename ρ, renameClauses ρ clauses, yield.rename ρ, renameOperators ρ operators⟩

end

mutual

def Expr.itemNames : Expr → List String
  | .constant .. | .queryable _ => []
  | .item name _ => [name]
  | .member e _ _ | .not e => e.itemNames
  | .binary _ left right _ => left.itemNames ++ right.itemNames
  | .conditional test ifTrue ifFalse _ => test.itemNames ++ (ifTrue.itemNames ++ ifFalse.itemNames)
  | .call object _ _ _ arguments _ => objectNames object ++ argumentsNames arguments
  | .record members => membersNames members
  | .subQuery model => model.itemNames

def objectNames : Option Expr → List String
  | none => []
  | some e => e.itemNames

def argumentsNames : List Expr → List String
  | [] => []
  | e :: rest => e.itemNames ++ argumentsNames rest

def membersNames : List (String × Expr) → List String
  | [] => []
  | (_, e) :: rest => e.itemNames ++ membersNames rest

def orderingsNames : List Ordering → List String
  | [] => []
  | ⟨e, _⟩ :: rest => e.itemNames ++ orderingsNames rest

def Source.itemNames : Source → List String
  | ⟨itemName, _, source⟩ => itemName :: source.itemNames

def Clause.itemNames : Clause → List String
  | .source source => source.itemNames
  | .filter e => e.itemNames
  | .orderBy orderings => orderingsNames orderings
  | .bind name e | .groupJoin name e => name :: e.itemNames
  | .keyJoin name _ inner outerKey innerKey =>
    name :: (inner.itemNames ++ (outerKey.itemNames ++ innerKey.itemNames))

def clausesNames : List Clause → List String
  | [] => []
  | clause :: rest => clause.itemNames ++ clausesNames rest

def Yield.itemNames : Yield → List String
  | .select selector => selector.itemNames
  | .group key element => key.itemNames ++ element.itemNames

def Operator.itemNames : Operator → List String
  | .take e | .skip e => e.itemNames
  | _ => []

def operatorsNames : List Operator → List String
  | [] => []
  | operator :: rest => operator.itemNames ++ operatorsNames rest

/-- The names of the items and lets that a query binds or refers to. -/
def Model.itemNames : Model → List String
  | ⟨main, clauses, yield, operators⟩ =>
    main.itemNames ++ (clausesNames clauses ++ (yield.itemNames ++ operatorsNames operators))

end

theorem Operator.name_rename (ρ : String → String) (operator : Operator) :
    (operator.rename ρ).name = operator.name := by
  cases operator <;> rfl

end Comprehension.Query
