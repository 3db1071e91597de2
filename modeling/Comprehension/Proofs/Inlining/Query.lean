import Comprehension.Proofs.PreparedReferences
import Comprehension.Proofs.Renaming.Query

/-!
Lets written out. A reference to a let is replaced by the expression of the let, in nested queries as
well, as far as its name is not bound again; the lists of bound names say where an expression that is
moved so could come to mean something else.
-/
namespace Comprehension.Query

/-- The expressions that stand in for some names. -/
abbrev Bindings := String → Option Expr

namespace Bindings

def single (name : String) (e : Expr) : Bindings :=
  fun other => if other = name then some e else none

/-- The bindings that are left where some names are bound again. -/
def without (bindings : Bindings) (bound : List String) : Bindings :=
  fun name => if name ∈ bound then none else bindings name

theorem without_append (bindings : Bindings) (bound bound' : List String) :
    bindings.without (bound ++ bound') = (bindings.without bound).without bound' := by
  funext name
  simp only [without, List.mem_append]
  grind

end Bindings

mutual

/-- The expression with the bindings in place of the names. -/
def Expr.inline (bindings : Bindings) : Expr → Expr
  | .constant value type => .constant value type
  | .queryable itemType => .queryable itemType
  | .item name type => (bindings name).getD (.item name type)
  | .member source name type => .member (source.inline bindings) name type
  | .binary op left right type => .binary op (left.inline bindings) (right.inline bindings) type
  | .not operand => .not (operand.inline bindings)
  | .conditional test ifTrue ifFalse type =>
    .conditional (test.inline bindings) (ifTrue.inline bindings) (ifFalse.inline bindings) type
  | .call object declaringType method parameterTypes arguments type =>
    .call (inlineObject bindings object) declaringType method parameterTypes
      (inlineArguments bindings arguments) type
  | .record members => .record (inlineMembers bindings members)
  | .subQuery model => .subQuery (model.inline bindings)

def inlineObject (bindings : Bindings) : Option Expr → Option Expr
  | none => none
  | some e => some (e.inline bindings)

def inlineArguments (bindings : Bindings) : List Expr → List Expr
  | [] => []
  | e :: rest => e.inline bindings :: inlineArguments bindings rest

def inlineMembers (bindings : Bindings) : List (String × Expr) → List (String × Expr)
  | [] => []
  | (name, e) :: rest => (name, e.inline bindings) :: inlineMembers bindings rest

def inlineOrderings (bindings : Bindings) : List Ordering → List Ordering
  | [] => []
  | ⟨e, direction⟩ :: rest => ⟨e.inline bindings, direction⟩ :: inlineOrderings bindings rest

def Source.inline (bindings : Bindings) : Source → Source
  | ⟨itemName, itemType, source⟩ => ⟨itemName, itemType, source.inline bindings⟩

def Clause.inline (bindings : Bindings) : Clause → Clause
  | .source source => .source (source.inline bindings)
  | .filter predicate => .filter (predicate.inline bindings)
  | .orderBy orderings => .orderBy (inlineOrderings bindings orderings)
  | .bind name e => .bind name (e.inline bindings)
  | .keyJoin itemName itemType inner outerKey innerKey =>
    .keyJoin itemName itemType (inner.inline bindings) (outerKey.inline bindings)
      (innerKey.inline (bindings.without [itemName]))
  | .groupJoin itemName inner => .groupJoin itemName (inner.inline bindings)

def inlineClauses (bindings : Bindings) : List Clause → List Clause
  | [] => []
  | clause :: rest => clause.inline bindings :: inlineClauses (bindings.without clause.binds) rest

def Yield.inline (bindings : Bindings) : Yield → Yield
  | .select selector => .select (selector.inline bindings)
  | .group key element => .group (key.inline bindings) (element.inline bindings)

def Operator.inline (bindings : Bindings) : Operator → Operator
  | .take count => .take (count.inline bindings)
  | .skip offset => .skip (offset.inline bindings)
  | .count => .count
  | .longCount => .longCount
  | .first orDefault => .first orDefault
  | .single orDefault => .single orDefault
  | .distinct => .distinct
  | .min => .min
  | .max => .max
  | .sum => .sum
  | .average => .average
  | .other name => .other name

def inlineOperators (bindings : Bindings) : List Operator → List Operator
  | [] => []
  | operator :: rest => operator.inline bindings :: inlineOperators bindings rest

def Model.inline (bindings : Bindings) : Model → Model
  | ⟨main, clauses, yield, operators⟩ =>
    let own := main.itemName :: clauses.flatMap Clause.binds
    ⟨main.inline bindings, inlineClauses (bindings.without [main.itemName]) clauses,
      yield.inline (bindings.without own), inlineOperators (bindings.without own) operators⟩

end

/-- The query with a let among its clauses written out: the let is left out, and behind it its
expression stands for its name. -/
def Model.inlineLet (m : Model) (before : List Clause) (name : String) (e : Expr)
    (after : List Clause) : Model :=
  let bindings := (Bindings.single name e).without (after.flatMap Clause.binds)
  { main := m.main
    clauses := before ++ inlineClauses (.single name e) after
    yield := m.yield.inline bindings
    operators := inlineOperators bindings m.operators }

mutual

def Expr.boundNames : Expr → List String
  | .constant .. | .queryable _ | .item .. => []
  | .member e _ _ | .not e => e.boundNames
  | .binary _ left right _ => left.boundNames ++ right.boundNames
  | .conditional test ifTrue ifFalse _ =>
    test.boundNames ++ (ifTrue.boundNames ++ ifFalse.boundNames)
  | .call object _ _ _ arguments _ => objectBoundNames object ++ argumentsBoundNames arguments
  | .record members => membersBoundNames members
  | .subQuery model => model.boundNames

def objectBoundNames : Option Expr → List String
  | none => []
  | some e => e.boundNames

def argumentsBoundNames : List Expr → List String
  | [] => []
  | e :: rest => e.boundNames ++ argumentsBoundNames rest

def membersBoundNames : List (String × Expr) → List String
  | [] => []
  | (_, e) :: rest => e.boundNames ++ membersBoundNames rest

def orderingsBoundNames : List Ordering → List String
  | [] => []
  | ⟨e, _⟩ :: rest => e.boundNames ++ orderingsBoundNames rest

def Source.boundNames : Source → List String
  | ⟨itemName, _, source⟩ => itemName :: source.boundNames

def Clause.boundNames : Clause → List String
  | .source source => source.boundNames
  | .filter e => e.boundNames
  | .orderBy orderings => orderingsBoundNames orderings
  | .bind name e | .groupJoin name e => name :: e.boundNames
  | .keyJoin name _ inner outerKey innerKey =>
    name :: (inner.boundNames ++ (outerKey.boundNames ++ innerKey.boundNames))

def clausesBoundNames : List Clause → List String
  | [] => []
  | clause :: rest => clause.boundNames ++ clausesBoundNames rest

def Yield.boundNames : Yield → List String
  | .select selector => selector.boundNames
  | .group key element => key.boundNames ++ element.boundNames

def Operator.boundNames : Operator → List String
  | .take e | .skip e => e.boundNames
  | _ => []

def operatorsBoundNames : List Operator → List String
  | [] => []
  | operator :: rest => operator.boundNames ++ operatorsBoundNames rest

/-- The names of the items and lets that a query binds, itself or in queries inside it. -/
def Model.boundNames : Model → List String
  | ⟨main, clauses, yield, operators⟩ =>
    main.boundNames ++ (clausesBoundNames clauses ++ (yield.boundNames ++ operatorsBoundNames operators))

end

mutual

/-- Whether there is no query inside an expression. -/
def Expr.queryless : Expr → Bool
  | .constant .. | .queryable _ | .item .. => true
  | .member e _ _ | .not e => e.queryless
  | .binary _ left right _ => left.queryless && right.queryless
  | .conditional test ifTrue ifFalse _ => test.queryless && (ifTrue.queryless && ifFalse.queryless)
  | .call object _ _ _ arguments _ => objectQueryless object && argumentsQueryless arguments
  | .record members => membersQueryless members
  | .subQuery _ => false

def objectQueryless : Option Expr → Bool
  | none => true
  | some e => e.queryless

def argumentsQueryless : List Expr → Bool
  | [] => true
  | e :: rest => e.queryless && argumentsQueryless rest

def membersQueryless : List (String × Expr) → Bool
  | [] => true
  | (_, e) :: rest => e.queryless && membersQueryless rest

end

theorem Operator.name_inline (bindings : Bindings) (operator : Operator) :
    (operator.inline bindings).name = operator.name := by
  cases operator <;> rfl

end Comprehension.Query
