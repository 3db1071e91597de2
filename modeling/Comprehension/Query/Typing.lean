import Comprehension.Query.Basic

/-!
Static types of query trees.
-/
namespace Comprehension.Query

namespace BinaryOp

def isComparison : BinaryOp → Bool
  | equal | notEqual | lessThan | lessThanOrEqual | greaterThan | greaterThanOrEqual => true
  | _ => false

end BinaryOp

/-- The type of a result after one more operator. -/
def Operator.resultType (type : ValueType) : Operator → ValueType
  | .count => .int32
  | .longCount => .int64
  | .average => .double
  | .first _ | .single _ | .min | .max | .sum => type.itemType?.getD type
  | _ => type

mutual

def Expr.type : Expr → ValueType
  | .constant _ type | .item _ type | .member _ _ type | .binary _ _ _ type
  | .conditional _ _ _ type | .call _ _ _ _ _ type => type
  | .queryable itemType => .sequence (.entity itemType)
  | .not _ => .boolean
  | .record _ => .object
  | .subQuery model => model.resultType

/-- The type of one row. -/
def Yield.rowType : Yield → ValueType
  | .select selector => selector.type
  | .group key _ => key.type

/-- The type of a query's result, after all its operators. -/
def Model.resultType : Model → ValueType
  | ⟨_, _, yield, operators⟩ => operators.foldl Operator.resultType (.sequence yield.rowType)

end

def Model.rowType (m : Model) : ValueType := m.yield.rowType

namespace Expr

/-- Comparisons and connectives are boolean, a fallback has the type of its second operand, and
arithmetic the type of its first. -/
def binaryOf (op : BinaryOp) (left right : Expr) : Expr :=
  let type :=
    if op.isComparison then .boolean
    else match op with
      | .andAlso | .orElse => .boolean
      | .coalesce => right.type
      | _ => left.type
  .binary op left right type

/-- A call whose parameter types are the types of its arguments. -/
def callOf (object : Option Expr) (declaringType method : String) (arguments : List Expr)
    (type : ValueType) : Expr :=
  .call object declaringType method (arguments.map Expr.type) arguments type

end Expr

end Comprehension.Query
