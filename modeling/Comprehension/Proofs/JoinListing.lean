import Comprehension.Proofs.Emission
import Comprehension.Proofs.JoinPaths
import Mathlib.Data.List.Forall2

/-!
How the tables of a statement and their joins are listed. A table is followed by its joins, and each
join by those that hang off it, so that the alias a join starts from is introduced before it.
-/
namespace Comprehension.Sql

open Command
open Outcome (bind_eq_ok pure_eq_ok)

def Link.joinPieces : Link → List Piece
  | .resolved (.table _ tableName tableAlias) (.column left) (.column right) =>
    [.text (joinKeyword .left), .identifier tableName, .text " AS ", .identifier tableAlias,
      .text " ON "] ++ columnPieces left.owner left.name ++ [.text " = "] ++
      columnPieces right.owner right.name
  | _ => []

/-- Whether each link of a list is made on a column under its own alias and on one under an alias
that was introduced before. -/
inductive Introduces : List String → List Link → Prop where
  | nil {seen : List String} : Introduces seen []
  | cons {seen : List String} {itemType tableName tableAlias : String} {left right : Column}
      {links : List Link} (earlier : left.owner ∈ seen) (own : right.owner = tableAlias)
      (rest : Introduces (tableAlias :: seen) links) :
      Introduces seen
        (.resolved (.table itemType tableName tableAlias) (.column left) (.column right) :: links)

/-- What is written for a table: its source, and after it its joins, each before those that hang off
it. -/
def Table.Lists (native : Bool) (table : Table) (item : JoinKind × Source × List Piece) : Prop :=
  ∃ source, table.source.pieces native = .ok source ∧
    item = (table.kind, table.source, source ++ (joinLinks table.joins).flatMap Link.joinPieces)

namespace Introduces

variable {seen seen' : List String} {links others : List Link}

theorem mono (h : Introduces seen links) (sub : seen ⊆ seen') : Introduces seen' links := by
  induction h generalizing seen' with
  | nil => exact .nil
  | cons earlier own rest ih => exact .cons (sub earlier) own (ih (List.cons_subset_cons _ sub))

theorem append (h : Introduces seen links) (h' : Introduces seen others) :
    Introduces seen (links ++ others) := by
  induction h with
  | nil => exact h'
  | cons earlier own rest ih =>
    exact .cons earlier own (ih (h'.mono (List.subset_cons_self _ _)))

end Introduces

variable {native : Bool} {parent : String} {joins : List Join}

theorem Hangs.introduces (h : Hangs parent joins) {seen : List String} (mem : parent ∈ seen) :
    Introduces seen (joinLinks joins) := by
  refine h.joins_induction
    (P := fun parent joins => ∀ seen, parent ∈ seen → Introduces seen (joinLinks joins)) ?_ ?_ seen mem
  · exact fun _ _ _ => .nil
  · intro parent member itemType tableName own left right below rest leftOwner rightOwner inside later
      seen mem
    rw [joinLinks, Join.links, List.cons_append]
    refine .cons (leftOwner ▸ mem) rightOwner (.append ?_ ?_)
    · exact inside _ List.mem_cons_self
    · exact later _ (List.mem_cons_of_mem _ mem)

/-- Joins are written one after the other, each followed by those that hang off it. -/
theorem Hangs.joinsPieces (h : Hangs parent joins) :
    joinsPieces native joins = .ok ((joinLinks joins).flatMap Link.joinPieces) := by
  refine h.joins_induction (P := fun _ joins => Sql.joinsPieces native joins =
    .ok ((joinLinks joins).flatMap Link.joinPieces)) (fun _ => rfl) ?_
  intro parent member itemType tableName own left right below rest leftOwner rightOwner inside later
  simp only [Sql.joinsPieces, Source.pieces, Expr.pieces, inside, later, joinLinks, Join.links,
    bind_eq_ok, pure_eq_ok]
  simp [Link.joinPieces]

theorem lists_of_tablesPieces {tables : List Table} {items : List (JoinKind × Source × List Piece)}
    (hung : ∀ table ∈ tables, table.Hung) (h : tablesPieces native tables = .ok items) :
    List.Forall₂ (Table.Lists native) tables items := by
  induction tables generalizing items with
  | nil =>
    obtain rfl := Except.ok.inj h
    exact .nil
  | cons table rest ih =>
    obtain ⟨first, later⟩ := List.forall_mem_cons.mp hung
    obtain ⟨key, source, kind, joins⟩ := table
    have written : joinsPieces native joins = .ok ((joinLinks joins).flatMap Link.joinPieces) := by
      rcases first with empty | ⟨own, -, hangs⟩
      · obtain rfl : joins = [] := empty
        rfl
      · exact hangs.joinsPieces
    simp only [tablesPieces, written, bind_eq_ok, pure_eq_ok] at h
    obtain ⟨pieces, hp, joined, hj, others, ho, rfl⟩ := h
    obtain rfl := Except.ok.inj hj
    exact .cons ⟨pieces, hp, rfl⟩ (ih later ho)

/-- The list of the tables of a statement stands behind its `FROM`. -/
theorem Statement.lists_of_pieces {s : Statement} {nested : Bool} {pieces : List Piece}
    (hung : ∀ table ∈ s.tables, table.Hung) (h : s.pieces native nested = .ok pieces) :
    ∃ top projection items condition grouping orderings,
      pieces = statementPieces s.isDistinct top projection items condition grouping orderings ∧
        List.Forall₂ (Table.Lists native) s.tables items := by
  obtain ⟨projection, tables, condition, grouping, orderings, top, isDistinct, rowNumber, rowOffset,
    shape⟩ := s
  simp only [Statement.pieces, bind_eq_ok] at h
  obtain ⟨top', -, projection', -, items, listed, condition', -, grouping', -, h⟩ := h
  have lists := lists_of_tablesPieces hung listed
  split at h
  · exact ⟨top', projection', items, condition', grouping', [], (pure_eq_ok.mp h).symm, lists⟩
  · obtain ⟨orderings', -, h⟩ := bind_eq_ok.mp h
    exact ⟨top', projection', items, condition', grouping', orderings', (pure_eq_ok.mp h).symm, lists⟩

end Comprehension.Sql
