import Comprehension.Text.Split
import Comprehension.Value.Type

/-!
Method signatures, the keys of the method registry:

    String.Substring(Int32, Int32)     a method
    String.Length                      a property
-/
namespace Comprehension.Method

structure Signature where
  declaringType : String
  name : String
  /-- Parameter types by name; `none` for a property. -/
  parameters : Option (List String)
deriving DecidableEq, Repr

namespace Signature

def method (declaringType name : String) (parameters : List String) : Signature :=
  ⟨declaringType, name, some parameters⟩

def property (declaringType name : String) : Signature :=
  ⟨declaringType, name, none⟩

/-- The signature under which a call of a query tree is looked up. -/
def ofCall (declaringType name : String) (parameters : List ValueType) : Signature :=
  ⟨declaringType, name, some (parameters.map ValueType.name)⟩

def isProperty (s : Signature) : Bool := s.parameters.isNone

def text (s : Signature) : String :=
  s.declaringType ++ "." ++ s.name ++
    match s.parameters with
    | none => ""
    | some parameters => "(" ++ Text.joined ", " parameters ++ ")"

/-- Lists in dictionary order, by the code points of their texts. -/
def listLe : List String → List String → Bool
  | [], _ => true
  | _ :: _, [] => false
  | a :: as, b :: bs => if a < b then true else if b < a then false else listLe as bs

/-- Properties come before methods. -/
def parametersLe : Option (List String) → Option (List String) → Bool
  | none, _ => true
  | some _, none => false
  | some as, some bs => listLe as bs

/-- Listings are in order of the declaring type, the name, then the parameters. -/
def le (a b : Signature) : Bool :=
  if a.declaringType < b.declaringType then true
  else if b.declaringType < a.declaringType then false
  else if a.name < b.name then true
  else if b.name < a.name then false
  else parametersLe a.parameters b.parameters

end Signature

end Comprehension.Method
