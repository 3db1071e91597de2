import Comprehension.Sql.Basic

/-!
Types and kinds of statement trees, and the expressions whose type follows from their parts.
-/
namespace Comprehension.Sql

namespace BinaryOp

def isComparison : BinaryOp → Bool
  | equal | notEqual | lessThan | lessThanOrEqual | greaterThan | greaterThanOrEqual => true
  | _ => false

end BinaryOp

namespace Shape

/-- The type of a whole result. -/
def resultType : Shape → ValueType
  | sequence itemType => .sequence itemType
  | singleValue type _ => type
  | scalar type => type

def isSequence : Shape → Bool
  | sequence _ => true
  | _ => false

/-- The type of one row. -/
def rowType : Shape → ValueType
  | sequence type | singleValue type _ | scalar type => type

/-- The shape after the type of the rows has changed. A computed value keeps its type. -/
def withRowType (type : ValueType) : Shape → Shape
  | sequence _ => sequence type
  | singleValue _ orDefault => singleValue type orDefault
  | scalar old => scalar old

end Shape

namespace Column

/-- All columns of a table. -/
def isStar (c : Column) : Bool := c.name = "*"

end Column

namespace Entity

def type (e : Entity) : ValueType := .entity e.itemType

end Entity

/-- The name of an entity's column in the sub-statement that exposes it. -/
def exposedName (entityName : Option String) (column : String) : String :=
  match entityName with
  | some name => name ++ "_" ++ column
  | none => column

namespace Literal

def type : Literal → ValueType
  | int _ => .int32
  | string _ => .string
  | null => .object

end Literal

/-- The column name of a projection without a name of its own. -/
def Named.defaultName : String := "value"

def Named.effectiveName (n : Named) : String := n.name.getD Named.defaultName

namespace Expr

def type : Expr → ValueType
  | column c => c.type
  | constant _ type | customText _ type | entityConstant type _ _ | navigation _ _ type
  | binary _ _ _ type | case _ _ type | function _ _ type _ | convert _ _ type
  | aggregation _ _ type | tableReference _ type | member _ _ type => type
  | literal l => l.type
  | entity e | entityReference _ _ e => e.type
  | like .. | logical .. | not _ => .boolean
  | likeEscape _ => .string
  | rowNumber _ => .int64
  | named ⟨_, expression⟩ => expression.type
  | compound _ => .object
  | subStatement s => s.shape.resultType
  | call c => c.type

/-- Whether a node is a predicate already, and no value. -/
def isPredicate : Expr → Bool
  | binary op _ _ _ => op.isComparison
  | like .. | logical .. | not _ => true
  | function _ _ _ isPredicate => isPredicate
  | _ => false

def isNullConstant : Expr → Bool
  | constant .null _ | literal .null => true
  | _ => false

def kind : Expr → Kind
  | column _ => .column
  | constant .. => .constant
  | literal _ => .literal
  | customText .. => .customText
  | entity _ => .entity
  | entityReference .. => .entityReference
  | entityConstant .. => .entityConstant
  | navigation .. => .navigation
  | binary .. => .binary
  | like .. => .like
  | likeEscape _ => .likeEscape
  | logical .. => .logical
  | not _ => .not
  | case .. => .case
  | function .. => .function
  | convert .. => .convert
  | aggregation .. => .aggregation
  | rowNumber _ => .rowNumber
  | named _ => .named
  | compound _ => .compound
  | subStatement _ => .subStatement
  | tableReference .. => .tableReference
  | member .. => .member
  | call _ => .methodCall

def int (n : Int) : Expr := literal (.int n)

def text (s : String) : Expr := literal (.string s)

/-- Comparisons are boolean, a concatenation is a text, and arithmetic has the type of its first
operand. -/
def binaryOf (op : BinaryOp) (left right : Expr) : Expr :=
  binary op left right
    (if op.isComparison then .boolean else if op = .concat then .string else left.type)

def equal (left right : Expr) : Expr := binaryOf .equal left right

def add (left right : Expr) : Expr := binaryOf .add left right

def subtract (left right : Expr) : Expr := binaryOf .subtract left right

def concat (left right : Expr) : Expr := binaryOf .concat left right

def and (left right : Expr) : Expr := logical .and left right

/-- A function that yields a value. -/
def valueFunction (name : String) (args : List Expr) (type : ValueType) : Expr :=
  function name args type false

/-- A function that is a predicate. -/
def predicateFunction (name : String) (args : List Expr) : Expr :=
  function name args .boolean true

/-- A single test with two outcomes, of the type of the first. -/
def caseWhen (test ifTrue ifFalse : Expr) : Expr :=
  case [(test, ifTrue)] (some ifFalse) ifTrue.type

@[simp] theorem type_equal (l r : Expr) : (equal l r).type = .boolean := rfl

@[simp] theorem isPredicate_equal (l r : Expr) : (equal l r).isPredicate = true := rfl

@[simp] theorem type_and (l r : Expr) : (and l r).type = .boolean := rfl

end Expr

namespace Source

def tableAlias? : Source → Option String
  | unresolved _ => none
  | table _ _ tableAlias | statement tableAlias _ => some tableAlias

/-- The type of one row. -/
def rowType : Source → ValueType
  | unresolved itemType | table itemType _ _ => .entity itemType
  | statement _ s => s.projection.type

end Source

namespace Link

def tableAlias? : Link → Option String
  | unresolved .. => none
  | resolved source _ _ => source.tableAlias?

end Link

/-- A condition and one more. -/
def conjoined (existing : Option Expr) (condition : Expr) : Expr :=
  match existing with
  | none => condition
  | some first => .and first condition

namespace Statement

/-- Whether rows are limited, paged, grouped or made distinct already. -/
def limitsRows (s : Statement) : Bool :=
  s.top.isSome || s.isDistinct || s.rowNumber.isSome || s.grouping.isSome

def withCondition (s : Statement) (condition : Expr) : Statement :=
  { s with condition := some (conjoined s.condition condition) }

end Statement

end Comprehension.Sql
