import Comprehension.Method.Registry

/-!
Ready-made transformers for methods that are registered by hand.
-/
namespace Comprehension.Method.Transformer

open Sql (Expr Call)

/-- The object, if any, and the arguments. -/
def operands (c : Call) : List Expr := c.object.toList ++ c.arguments

/-- A function of the call's type over its operands. -/
def function (name : String) : Transformer := fun c =>
  .ok (.valueFunction name (operands c) c.type)

/-- A function over the call's operands that is a predicate. -/
def predicate (name : String) : Transformer := fun c =>
  .ok (.predicateFunction name (operands c))

def literal (n : Int) : Transformer := fun _ => .ok (.int n)

def customText (text : String) : Transformer := fun c => .ok (.customText text c.type)

def argument (index : Nat) : Transformer := fun c => c.argument index

def object : Transformer := fun c => c.instance?

/-- Leaves the call as it is. -/
def keep : Transformer := fun c => .ok (.call c)

end Comprehension.Method.Transformer
