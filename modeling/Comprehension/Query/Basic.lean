import Comprehension.Value.Basic
import Comprehension.Value.Type

/-!
Query trees: the sources, filters, orderings and lets of a query, its selection or grouping, and
the operators applied to its result. Queries nest as sources and as expressions.
-/
namespace Comprehension.Query

inductive BinaryOp where
  | equal
  | notEqual
  | lessThan
  | lessThanOrEqual
  | greaterThan
  | greaterThanOrEqual
  | andAlso
  | orElse
  | add
  | subtract
  | multiply
  | divide
  | modulo
  | coalesce
deriving DecidableEq, Repr

inductive Direction where
  | asc
  | desc
deriving DecidableEq, Repr

def Direction.text : Direction → String
  | asc => "ASC"
  | desc => "DESC"

mutual

inductive Expr where
  | constant (value : Value) (type : ValueType)
  /-- A table of mapped entities. -/
  | queryable (itemType : String)
  /-- The item of a source clause, or a let binding. -/
  | item (name : String) (type : ValueType)
  | member (source : Expr) (name : String) (type : ValueType)
  | binary (op : BinaryOp) (left right : Expr) (type : ValueType)
  | not (operand : Expr)
  | conditional (test ifTrue ifFalse : Expr) (type : ValueType)
  /-- A method call; static calls have no object. -/
  | call (object : Option Expr) (declaringType method : String)
      (parameterTypes : List ValueType) (arguments : List Expr) (type : ValueType)
  /-- An anonymous record. -/
  | record (members : List (String × Expr))
  | subQuery (model : Model)

/-- `from item in source`. -/
structure Source where
  itemName : String
  itemType : ValueType
  source : Expr

structure Ordering where
  expression : Expr
  direction : Direction

inductive Clause where
  | source (source : Source)
  | filter (predicate : Expr)
  /-- The orderings of one clause; a later clause sorts first. -/
  | orderBy (orderings : List Ordering)
  | bind (name : String) (expression : Expr)
  | keyJoin (itemName : String) (itemType : ValueType) (inner outerKey innerKey : Expr)
  | groupJoin (itemName : String) (inner : Expr)

/-- The end of a query: what it yields for each row, or for each group of rows. -/
inductive Yield where
  | select (selector : Expr)
  | group (key element : Expr)

inductive Operator where
  | count
  | longCount
  | take (count : Expr)
  | skip (offset : Expr)
  | first (orDefault : Bool)
  | single (orDefault : Bool)
  | distinct
  | min
  | max
  | sum
  | average
  /-- An operator without a counterpart in a statement. -/
  | other (name : String)

structure Model where
  main : Source
  clauses : List Clause
  yield : Yield
  operators : List Operator

end

def Operator.name : Operator → String
  | .count => "Count"
  | .longCount => "LongCount"
  | .take _ => "Take"
  | .skip _ => "Skip"
  | .first _ => "First"
  | .single _ => "Single"
  | .distinct => "Distinct"
  | .min => "Min"
  | .max => "Max"
  | .sum => "Sum"
  | .average => "Average"
  | .other name => name

namespace Source

/-- `from itemName in` the table of a mapped type. -/
def table (itemName itemType : String) : Source :=
  ⟨itemName, .entity itemType, .queryable itemType⟩

/-- The expression for the item of the source. -/
def reference (s : Source) : Expr := .item s.itemName s.itemType

end Source

namespace Model

/-- The query that selects the items of one source. -/
def ofSource (main : Source) : Model := ⟨main, [], .select main.reference, []⟩

def withClause (m : Model) (clause : Clause) : Model := { m with clauses := m.clauses ++ [clause] }

def withYield (m : Model) (yield : Yield) : Model := { m with yield }

def withOperator (m : Model) (operator : Operator) : Model :=
  { m with operators := m.operators ++ [operator] }

end Model

end Comprehension.Query
