import Comprehension.Prepared.Operators
import Comprehension.Proofs.Adaptation
import Comprehension.Proofs.Masking.Query
import Comprehension.Resolved.Navigation

/-!
Statement trees without the values of their constants. What the types, the kinds and the positions
of a tree are does not depend on these values.
-/
namespace Comprehension.Sql

mutual

def Expr.masked : Expr → Expr
  | .constant value type => .constant value.masked type
  | .entityConstant type value primaryKey => .entityConstant type value.masked primaryKey.masked
  | .binary op left right type => .binary op left.masked right.masked type
  | .like expression pattern => .like expression.masked pattern.masked
  | .likeEscape value => .likeEscape value.masked
  | .logical op left right => .logical op left.masked right.masked
  | .not operand => .not operand.masked
  | .case branches otherwise type => .case (branchesMasked branches) (optionMasked otherwise) type
  | .function name args type isPredicate => .function name (argsMasked args) type isPredicate
  | .convert target expression type => .convert target expression.masked type
  | .aggregation function expression type => .aggregation function expression.masked type
  | .rowNumber orderings => .rowNumber (orderingsMasked orderings)
  | .named ⟨name, expression⟩ => .named ⟨name, expression.masked⟩
  | .compound members => .compound (membersMasked members)
  | .subStatement statement => .subStatement statement.masked
  | .member source name type => .member source.masked name type
  | .column c => .column c
  | .literal l => .literal l
  | .customText text type => .customText text type
  | .entity e => .entity e
  | .entityReference tableAlias name e => .entityReference tableAlias name e
  | .navigation e member type => .navigation e member type
  | .tableReference key type => .tableReference key type
  -- A call that no method has replaced is refused, whatever its arguments.
  | .call c => .call c

def optionMasked : Option Expr → Option Expr
  | none => none
  | some e => some e.masked

def argsMasked : List Expr → List Expr
  | [] => []
  | e :: rest => e.masked :: argsMasked rest

def branchesMasked : List (Expr × Expr) → List (Expr × Expr)
  | [] => []
  | (test, value) :: rest => (test.masked, value.masked) :: branchesMasked rest

def orderingsMasked : List Ordering → List Ordering
  | [] => []
  | ⟨e, direction⟩ :: rest => ⟨e.masked, direction⟩ :: orderingsMasked rest

def membersMasked : List Named → List Named
  | [] => []
  | ⟨name, e⟩ :: rest => ⟨name, e.masked⟩ :: membersMasked rest

def Source.masked : Source → Source
  | .statement tableAlias statement => .statement tableAlias statement.masked
  | .unresolved itemType => .unresolved itemType
  | .table itemType tableName tableAlias => .table itemType tableName tableAlias

def Link.masked : Link → Link
  | .unresolved origin member => .unresolved origin member
  | .resolved source leftKey rightKey => .resolved source.masked leftKey.masked rightKey.masked

def joinsMasked : List Join → List Join
  | [] => []
  | ⟨member, kind, link, joins⟩ :: rest =>
    ⟨member, kind, link.masked, joinsMasked joins⟩ :: joinsMasked rest

def tablesMasked : List Table → List Table
  | [] => []
  | ⟨key, source, kind, joins⟩ :: rest =>
    ⟨key, source.masked, kind, joinsMasked joins⟩ :: tablesMasked rest

/-- The statement without the values of its constants. -/
def Statement.masked : Statement → Statement
  | ⟨projection, tables, condition, grouping, orderings, top, isDistinct, rowNumber, rowOffset,
      shape⟩ =>
    { projection := projection.masked
      tables := tablesMasked tables
      condition := optionMasked condition
      grouping := optionMasked grouping
      orderings := orderingsMasked orderings
      top := optionMasked top
      isDistinct
      rowNumber := optionMasked rowNumber
      rowOffset := optionMasked rowOffset
      shape }

end

attribute [simp] Expr.masked optionMasked argsMasked branchesMasked orderingsMasked membersMasked
  Source.masked Link.masked joinsMasked tablesMasked Statement.masked

def Named.masked (n : Named) : Named := ⟨n.name, n.expression.masked⟩

def Join.masked (j : Join) : Join := ⟨j.member, j.kind, j.link.masked, joinsMasked j.joins⟩

def Table.masked (t : Table) : Table := ⟨t.key, t.source.masked, t.kind, joinsMasked t.joins⟩

theorem optionMasked_eq (e : Option Expr) : optionMasked e = e.map Expr.masked := by
  cases e <;> rfl

theorem argsMasked_eq (args : List Expr) : argsMasked args = args.map Expr.masked := by
  induction args with
  | nil => rfl
  | cons e rest ih => simp [argsMasked, ih]

theorem membersMasked_eq (members : List Named) : membersMasked members = members.map Named.masked := by
  induction members with
  | nil => rfl
  | cons n rest ih =>
    cases n
    simp [membersMasked, ih, Named.masked]

theorem orderingsMasked_append (orderings others : List Ordering) :
    orderingsMasked (orderings ++ others) = orderingsMasked orderings ++ orderingsMasked others := by
  induction orderings with
  | nil => rfl
  | cons ordering rest ih =>
    cases ordering
    simp [orderingsMasked, ih]

theorem joinsMasked_eq (joins : List Join) : joinsMasked joins = joins.map Join.masked := by
  induction joins with
  | nil => rfl
  | cons j rest ih =>
    cases j
    simp [joinsMasked, ih, Join.masked]

theorem tablesMasked_eq (tables : List Table) : tablesMasked tables = tables.map Table.masked := by
  induction tables with
  | nil => rfl
  | cons t rest ih =>
    cases t
    simp [tablesMasked, ih, Table.masked]

namespace Statement

variable (s : Statement)

@[simp] theorem projection_masked : s.masked.projection = s.projection.masked := by cases s; rfl

@[simp] theorem tables_masked : s.masked.tables = tablesMasked s.tables := by cases s; rfl

@[simp] theorem condition_masked : s.masked.condition = s.condition.map Expr.masked := by
  cases s
  simp [masked, optionMasked_eq]

@[simp] theorem grouping_masked : s.masked.grouping = s.grouping.map Expr.masked := by
  cases s
  simp [masked, optionMasked_eq]

@[simp] theorem orderings_masked : s.masked.orderings = orderingsMasked s.orderings := by cases s; rfl

@[simp] theorem top_masked : s.masked.top = s.top.map Expr.masked := by
  cases s
  simp [masked, optionMasked_eq]

@[simp] theorem isDistinct_masked : s.masked.isDistinct = s.isDistinct := by cases s; rfl

@[simp] theorem rowNumber_masked : s.masked.rowNumber = s.rowNumber.map Expr.masked := by
  cases s
  simp [masked, optionMasked_eq]

@[simp] theorem rowOffset_masked : s.masked.rowOffset = s.rowOffset.map Expr.masked := by
  cases s
  simp [masked, optionMasked_eq]

@[simp] theorem shape_masked : s.masked.shape = s.shape := by cases s; rfl

end Statement

namespace Expr

@[simp] theorem masked_named (n : Named) : (named n).masked = named n.masked := by
  cases n
  rfl

@[simp] theorem type_masked : ∀ e : Expr, e.masked.type = e.type
  | .named ⟨_, e⟩ => by simpa [masked, type] using type_masked e
  | .subStatement _ | .column _ | .constant .. | .literal _ | .customText .. | .entity _
  | .entityReference .. | .entityConstant .. | .navigation .. | .binary .. | .like ..
  | .likeEscape _ | .logical .. | .not _ | .case .. | .function .. | .convert .. | .aggregation ..
  | .rowNumber _ | .compound _ | .tableReference .. | .member .. | .call _ => by
    simp [masked, type]

@[simp] theorem isPredicate_masked (e : Expr) : e.masked.isPredicate = e.isPredicate := by
  cases e <;> simp [masked, isPredicate]

@[simp] theorem isEntity_masked (e : Expr) : e.masked.isEntity = e.isEntity := by
  cases e <;> simp [masked, isEntity]

@[simp] theorem kind_masked (e : Expr) : e.masked.kind = e.kind := by
  cases e <;> simp [masked, kind]

@[simp] theorem isNullConstant_masked (e : Expr) : e.masked.isNullConstant = e.isNullConstant := by
  cases e with
  | constant value type => cases value <;> simp [masked, Value.masked, isNullConstant]
  | _ => simp [masked, isNullConstant]

theorem masked_asValue (e : Expr) : e.asValue.masked = e.masked.asValue := by
  simp [asValue, masked, branchesMasked, optionMasked, int]

theorem masked_asPredicate (e : Expr) : e.asPredicate.masked = e.masked.asPredicate := by
  unfold asPredicate
  simp only [isPredicate_masked, type_masked]
  split
  · rfl
  · split
    · simp [equal, binaryOf, masked, int]
    · rfl

theorem masked_converted (position : Position) (e : Expr) :
    (e.converted position).masked = e.masked.converted position := by
  cases position <;> simp only [converted, isPredicate_masked]
  · exact masked_asPredicate e
  all_goals
    split
    · exact masked_asValue e
    · rfl

@[simp] theorem truth?_masked (e : Expr) : e.masked.truth? = e.truth? := by
  cases e with
  | constant value type => cases value <;> simp [masked, Value.masked, truth?]
  | _ => simp [masked, truth?]

/-- An expression is adapted to its position without a look at the values in it. -/
theorem adapted_masked (native : Bool) (position : Position) (e : Expr) :
    adapted native position e.masked = (adapted native position e).map masked := by
  simp only [adapted_eq, isEntity_masked, kind_masked, truth?_masked]
  split
  · rfl
  · split
    · rename_i value _ _
      cases value <;> simp [Except.map, truth, binaryOf, masked, int]
    · cases native <;> simp [Except.map, masked_converted]

end Expr

end Comprehension.Sql
