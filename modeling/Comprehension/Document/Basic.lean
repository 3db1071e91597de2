import Comprehension.Decimal.Notation

/-!
Documents: the tree of lists and records that queries, schemas and commands are exchanged in.
-/
namespace Comprehension

inductive Document where
  | null
  | bool (b : Bool)
  | int (n : Int)
  | double (x : Decimal.Double)
  | text (s : String)
  | list (items : List Document)
  | record (fields : List (String × Document))
deriving BEq

namespace Document

mutual

/-- How deep lists and records stand inside each other. -/
def depth : Document → Nat
  | list items => listDepth items + 1
  | record fields => fieldsDepth fields + 1
  | _ => 0

def listDepth : List Document → Nat
  | [] => 0
  | d :: rest => max d.depth (listDepth rest)

def fieldsDepth : List (String × Document) → Nat
  | [] => 0
  | (_, d) :: rest => max d.depth (fieldsDepth rest)

end

/-- Keeps the last of the fields with one name. -/
def lastFields : List (String × Document) → List (String × Document)
  | [] => []
  | (name, d) :: rest =>
    let rest := lastFields rest
    if rest.any fun (other, _) => other = name then rest else (name, d) :: rest

mutual

/-- The document in which every field name is used once, for its last value. -/
def unique : Document → Document
  | list items => list (uniqueList items)
  | record fields => record (lastFields (uniqueFields fields))
  | null => null
  | bool b => bool b
  | int n => int n
  | double x => double x
  | text s => text s

def uniqueList : List Document → List Document
  | [] => []
  | d :: rest => d.unique :: uniqueList rest

def uniqueFields : List (String × Document) → List (String × Document)
  | [] => []
  | (name, d) :: rest => (name, d.unique) :: uniqueFields rest

end

mutual

/-- The document without the fields that are null. -/
def withoutNulls : Document → Document
  | list items => list (listWithoutNulls items)
  | record fields => record (fieldsWithoutNulls fields)
  | null => null
  | bool b => bool b
  | int n => int n
  | double x => double x
  | text s => text s

def listWithoutNulls : List Document → List Document
  | [] => []
  | d :: rest => d.withoutNulls :: listWithoutNulls rest

def fieldsWithoutNulls : List (String × Document) → List (String × Document)
  | [] => []
  | (_, null) :: rest => fieldsWithoutNulls rest
  | (name, d) :: rest => (name, d.withoutNulls) :: fieldsWithoutNulls rest

end

/-- The value of a field; a null stands for no value. -/
def field? (d : Document) (name : String) : Option Document :=
  match d with
  | record fields =>
    match fields.lookup name with
    | some null => none
    | found => found
  | _ => none

/-- A text, or null. -/
def ofText? : Option String → Document
  | some s => text s
  | none => null

/-- A value under its tag. -/
def tagged (tag : String) (d : Document) : Document := record [(tag, d)]

end Document

end Comprehension
