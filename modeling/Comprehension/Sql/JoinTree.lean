import Comprehension.Sql.Typing

/-!
The joins below a table form a tree. No two joins of one place lead through the same member, and
their order is the order in which they are written.
-/
namespace Comprehension.Sql

namespace Join

def find? (member : String) : List Join → Option Join
  | [] => none
  | join :: rest => if join.member = member then some join else find? member rest

/-- Replaces the join through the same member, or adds the join at the end. -/
def put (join : Join) : List Join → List Join
  | [] => [join]
  | first :: rest => if first.member = join.member then join :: rest else first :: put join rest

/-- The join through a member, added without a mapping where there is none. -/
def getOrAdd (member : String) (kind : JoinKind) (link : Link) (joins : List Join) :
    Join × List Join :=
  match find? member joins with
  | some join => (join, joins)
  | none =>
    let join : Join := ⟨member, kind, link, []⟩
    (join, joins ++ [join])

theorem find?_append_of_eq_none (member : String) (join : Join) (joins : List Join)
    (h : find? member joins = none) (hm : join.member = member) :
    find? member (joins ++ [join]) = some join := by
  induction joins with
  | nil => simp [find?, hm]
  | cons first rest ih =>
    by_cases hf : first.member = member
    · simp [find?, hf] at h
    · simp only [find?, if_neg hf] at h
      simp [find?, hf, ih h]

end Join

mutual

/-- The joins that hang off a join, or off one below it, with an alias, and how to put others in
their place. -/
def Join.focus (tableAlias : String) : Join → Option (List Join × (List Join → Join))
  | ⟨member, kind, link, joins⟩ =>
    if link.tableAlias? = some tableAlias then
      some (joins, fun replaced => ⟨member, kind, link, replaced⟩)
    else match Join.focusIn tableAlias joins with
      | some (found, rebuild) =>
        some (found, fun replaced => ⟨member, kind, link, rebuild replaced⟩)
      | none => none

/-- The first join of a list that has the alias, itself or below. -/
def Join.focusIn (tableAlias : String) : List Join → Option (List Join × (List Join → List Join))
  | [] => none
  | join :: rest =>
    match join.focus tableAlias with
    | some (found, rebuild) => some (found, fun replaced => rebuild replaced :: rest)
    | none => match Join.focusIn tableAlias rest with
      | some (found, rebuild) => some (found, fun replaced => join :: rebuild replaced)
      | none => none

end

namespace Table

def ofSource (key : Nat) (source : Source) (kind : JoinKind) : Table := ⟨key, source, kind, []⟩

def focus (tableAlias : String) (table : Table) : Option (List Join × (List Join → Table)) :=
  if table.source.tableAlias? = some tableAlias then
    some (table.joins, fun joins => { table with joins })
  else match Join.focusIn tableAlias table.joins with
    | some (found, rebuild) => some (found, fun joins => { table with joins := rebuild joins })
    | none => none

/-- The first table of a list that has the alias, itself or below. -/
def focusIn (tableAlias : String) : List Table → Option (List Join × (List Join → List Table))
  | [] => none
  | table :: rest =>
    match table.focus tableAlias with
    | some (found, rebuild) => some (found, fun joins => rebuild joins :: rest)
    | none => match focusIn tableAlias rest with
      | some (found, rebuild) => some (found, fun joins => table :: rebuild joins)
      | none => none

end Table

end Comprehension.Sql
