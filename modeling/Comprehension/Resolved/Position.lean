import Comprehension.Error
import Comprehension.Sql.Typing

/-!
Positions of expressions. SQL keeps predicates and values apart: a boolean value is no predicate
and a predicate no value. Each position says what it needs, and an expression is adapted to it.
-/
namespace Comprehension.Sql

inductive Position where
  /-- Conditions, operands of connectives, tests of cases. -/
  | predicate
  /-- Projections and grouping keys, where entities and compounds may stand. -/
  | value
  /-- Operands, arguments, orderings: exactly one value. -/
  | singleValue
deriving DecidableEq, Repr

namespace Expr

def isEntity : Expr → Bool
  | entity _ | entityReference .. | entityConstant .. => true
  | _ => false

def truth (value : Bool) : Expr := binaryOf (if value then .equal else .notEqual) (int 1) (int 1)

def asValue (e : Expr) : Expr := case [(e, int 1)] (some (int 0)) .boolean

/-- A boolean value as a predicate; what is not boolean is left alone. -/
def asPredicate (e : Expr) : Expr :=
  if e.isPredicate then e
  else if e.type.isBoolean then equal e (int 1)
  else e

def converted (position : Position) (e : Expr) : Expr :=
  match position with
  | .predicate => e.asPredicate
  | .value | .singleValue => if e.isPredicate then e.asValue else e

/-- Adapts an expression to a position. With a native boolean type only constant conditions are
replaced. -/
def adapted (nativeBoolean : Bool) (position : Position) (e : Expr) : Except Error Expr :=
  if position = .singleValue ∧ e.isEntity then
    .error (.unsupportedExpression e.kind .entityAsSingleValue)
  else match position, e with
    | .predicate, .constant (.bool value) _ => .ok (truth value)
    | _, _ => .ok (if nativeBoolean then e else e.converted position)

@[simp] theorem isPredicate_truth (b : Bool) : (truth b).isPredicate = true := by
  cases b <;> rfl

@[simp] theorem isPredicate_asValue (e : Expr) : e.asValue.isPredicate = false := rfl

end Expr

end Comprehension.Sql
