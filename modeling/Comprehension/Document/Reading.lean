import Comprehension.Document.Basic
import Comprehension.Error

/-!
Reading values out of documents. A reading fails on a document of the wrong form, or because what
it describes is rejected. Values with named parts are records, or lists of the parts in order;
alternatives are records with their tag as the only field, and a tag without parts may stand alone.
-/
namespace Comprehension.Document

inductive Fault where
  | malformed
  | rejected (error : Error)
deriving DecidableEq

abbrev Reading := Except Fault

def required {α : Type} : Option α → Reading α
  | some a => .ok a
  | none => .error .malformed

/-- Passes an error on as the reason of a rejection. -/
def accepted {α : Type} : Except Error α → Reading α
  | .ok a => .ok a
  | .error e => .error (.rejected e)

def asText : Document → Reading String
  | text s => .ok s
  | _ => .error .malformed

def asBool : Document → Reading Bool
  | bool b => .ok b
  | _ => .error .malformed

/-- A signed integer of the given number of bits. -/
def asInt (bits : Nat) : Document → Reading Int
  | int n =>
    let bound : Int := Nat.pow 2 (bits - 1)
    if -bound ≤ n ∧ n < bound then .ok n else .error .malformed
  | _ => .error .malformed

def asNat : Document → Reading Nat
  | int n => if 0 ≤ n then .ok n.toNat else .error .malformed
  | _ => .error .malformed

def asList : Document → Reading (List Document)
  | list items => .ok items
  | _ => .error .malformed

def asRecord : Document → Reading (List (String × Document))
  | record fields => .ok fields
  | _ => .error .malformed

def each {α : Type} (read : Document → Reading α) (d : Document) : Reading (List α) := do
  (← d.asList).mapM read

def orNull {α : Type} (read : Document → Reading α) : Document → Reading (Option α)
  | null => .ok none
  | d => do return some (← read d)

/-- A part that may be missing or null. -/
def ifGiven {α : Type} (read : Document → Reading α) : Option Document → Reading (Option α)
  | none => .ok none
  | some d => orNull read d

/-- A list that may be missing or null. -/
def listIfGiven {α : Type} (read : Document → Reading α) : Option Document → Reading (List α)
  | none | some null => .ok []
  | some d => each read d

/-- The field of a record; a name must not be used twice. -/
def onlyField (fields : List (String × Document)) (name : String) : Reading (Option Document) :=
  match fields.filter fun (other, _) => other = name with
  | [] => .ok none
  | [(_, d)] => .ok (some d)
  | _ => .error .malformed

/-- The named parts of a record, in the order of the names. -/
def members (names : List String) (d : Document) : Reading (List (Option Document)) := do
  let fields ← d.asRecord
  names.mapM (onlyField fields)

/-- How a document was written. -/
inductive Form where
  | json
  /-- Without nulls: a tag that stands alone may have an empty table or list under it. -/
  | toml
deriving DecidableEq

/-- The named parts of a record, or of a list that holds them in order. The end of a longer list is
skipped in TOML only. -/
def parts (form : Form) (names : List String) : Document → Reading (List (Option Document))
  | list items =>
    if items.length ≤ names.length || form = .toml then
      .ok ((items.map some ++ List.replicate names.length none).take names.length)
    else .error .malformed
  | d => d.members names

def variant : Document → Reading (String × Option Document)
  | text tag => .ok (tag, none)
  | record [(tag, d)] => .ok (tag, some d)
  | _ => .error .malformed

/-- Whether nothing stands under a tag. -/
def Form.isBare : Form → Option Document → Bool
  | _, none => true
  | json, some null => true
  | toml, some (record []) => true
  | toml, some (list []) => true
  | _, _ => false

def bareTag (form : Form) (d : Document) : Reading String := do
  let (tag, content) ← d.variant
  if form.isBare content then return tag else throw .malformed

/-- Looks a tag up in a table of alternatives without parts. -/
def choice {α : Type} (table : List (String × α)) (tag : String) : Reading α :=
  required (table.lookup tag)

end Comprehension.Document
