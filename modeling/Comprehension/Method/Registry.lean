import Comprehension.Error
import Comprehension.Sql.Typing

/-!
The method registry: what calls and property accesses of a query stand for in a statement, looked
up by signature. Registering a signature again replaces what it stood for.
-/
namespace Comprehension.Sql.Call

/-- What a method is called on. -/
def instance? (c : Call) : Except Error Expr :=
  match c.object with
  | some object => .ok object
  | none => .error (.contract (.noInstance c.signature c.text))

def argument (c : Call) (index : Nat) : Except Error Expr :=
  match c.arguments[index]? with
  | some argument => .ok argument
  | none => .error (.contract (.noArgument c.signature index c.text))

end Comprehension.Sql.Call

namespace Comprehension.Method

open Sql (Expr Call)

/-- Turns a call into an expression. -/
abbrev Transformer := Call → Except Error Expr

structure Registry where
  entries : List (Signature × Transformer)

namespace Registry

def empty : Registry := ⟨[]⟩

def get? (r : Registry) (signature : Signature) : Option Transformer :=
  r.entries.lookup signature

def contains (r : Registry) (signature : Signature) : Bool := (r.get? signature).isSome

def size (r : Registry) : Nat := r.entries.length

/-- Puts a transformer in the place of an earlier one, or at the end. -/
def insert (signature : Signature) (transformer : Transformer) :
    List (Signature × Transformer) → List (Signature × Transformer)
  | [] => [(signature, transformer)]
  | (s, t) :: rest =>
    if s = signature then (signature, transformer) :: rest
    else (s, t) :: insert signature transformer rest

def register (r : Registry) (signature : Signature) (transformer : Transformer) : Registry :=
  ⟨insert signature transformer r.entries⟩

/-- Registers one transformer under several signatures. -/
def registerAll (r : Registry) (signatures : List Signature) (transformer : Transformer) :
    Registry :=
  signatures.foldl (fun r signature => r.register signature transformer) r

/-- The registered signatures in order. -/
def signatures (r : Registry) : List Signature := (r.entries.map (·.1)).mergeSort Signature.le

/-- Replaces a call by what its signature stands for. -/
def transform (r : Registry) (call : Call) : Except Error Expr :=
  match r.get? call.signature with
  | some transformer => transformer call
  | none => .error (.unsupportedMethod call.signature call.text)

theorem lookup_insert (signature : Signature) (transformer : Transformer)
    (entries : List (Signature × Transformer)) :
    (insert signature transformer entries).lookup signature = some transformer := by
  induction entries with
  | nil => simp [insert]
  | cons entry rest ih =>
    obtain ⟨s, t⟩ := entry
    by_cases h : s = signature
    · simp [insert, h]
    · have hne : (signature == s) = false := by simpa using fun e => h e.symm
      simp [insert, h, List.lookup_cons, hne, ih]

/-- The last registration wins. -/
@[simp] theorem get?_register (r : Registry) (signature : Signature) (transformer : Transformer) :
    (r.register signature transformer).get? signature = some transformer :=
  lookup_insert signature transformer r.entries

end Registry

end Comprehension.Method
