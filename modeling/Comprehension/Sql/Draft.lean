import Comprehension.Error
import Comprehension.Sql.Typing

/-!
Statements under construction. A draft may still lack its projection and its shape; a statement is
well formed when its condition is boolean.
-/
namespace Comprehension.Sql

/-- Accepts a statement whose condition, if any, is boolean. -/
def Statement.checked (s : Statement) : Except Error Statement :=
  match s.condition with
  | none => .ok s
  | some condition =>
    if condition.type.isBoolean then .ok s
    else .error (.contract (.conditionNotBoolean condition.kind condition.type))

theorem Statement.checked_eq_ok {s t : Statement} (h : s.checked = .ok t) : t = s := by
  unfold Statement.checked at h
  split at h
  · exact (Except.ok.inj h).symm
  · split at h
    · exact (Except.ok.inj h).symm
    · cases h

structure Draft where
  projection : Option Expr := none
  tables : List Table := []
  condition : Option Expr := none
  grouping : Option Expr := none
  orderings : List Ordering := []
  top : Option Expr := none
  isDistinct : Bool := false
  rowNumber : Option Expr := none
  rowOffset : Option Expr := none
  shape : Option Shape := none

namespace Draft

def ofStatement (s : Statement) : Draft :=
  { projection := some s.projection, tables := s.tables, condition := s.condition
    grouping := s.grouping, orderings := s.orderings, top := s.top, isDistinct := s.isDistinct
    rowNumber := s.rowNumber, rowOffset := s.rowOffset, shape := some s.shape }

def withCondition (d : Draft) (condition : Expr) : Draft :=
  { d with condition := some (conjoined d.condition condition) }

/-- Whether rows are limited, paged, grouped or made distinct already. -/
def limitsRows (d : Draft) : Bool :=
  d.top.isSome || d.isDistinct || d.rowNumber.isSome || d.grouping.isSome

/-- The shape follows a projection that was replaced, when its type has changed. -/
def reshape (d : Draft) (previous : Expr) : Draft :=
  match d.projection with
  | none => d
  | some projection =>
    if projection.type = previous.type then d
    else { d with shape := d.shape.map (Shape.withRowType projection.type) }

/-- A complete and well-formed statement. -/
def freeze (d : Draft) : Except Error Statement :=
  match d.projection with
  | none => .error (.contract .noProjection)
  | some projection =>
    match d.shape with
    | none => .error (.contract .noDataShape)
    | some shape =>
      Statement.checked
        { projection, tables := d.tables, condition := d.condition, grouping := d.grouping
          orderings := d.orderings, top := d.top, isDistinct := d.isDistinct
          rowNumber := d.rowNumber, rowOffset := d.rowOffset, shape }

theorem freeze_ofStatement (s : Statement) : (ofStatement s).freeze = s.checked := by
  cases s
  rfl

end Draft

end Comprehension.Sql
