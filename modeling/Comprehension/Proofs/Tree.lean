import Comprehension.Resolved.Position

/-!
Statement trees, node by node. The slots of a node are the expressions that it is made of, each
with the position it stands in; statements nest as expressions and as sources.
-/
namespace Comprehension.Sql

/-- The expressions that a node is made of. A key of an entity constant and a call are never looked
into, and a name takes the position that it stands in itself. -/
def Expr.slots : Expr → List (Position × Expr)
  | .binary _ left right _ => [(.value, left), (.value, right)]
  | .like expression pattern => [(.singleValue, expression), (.singleValue, pattern)]
  | .likeEscape e | .convert _ e _ => [(.singleValue, e)]
  | .logical _ left right => [(.predicate, left), (.predicate, right)]
  | .not e => [(.predicate, e)]
  | .case branches otherwise _ =>
    branches.flatMap (fun branch => [(.predicate, branch.1), (.singleValue, branch.2)]) ++
      otherwise.toList.map (.singleValue, ·)
  | .function _ args _ _ => args.map (.singleValue, ·)
  | .aggregation aggregate e _ => [(if aggregate = .count then .value else .singleValue, e)]
  | .rowNumber orderings => orderings.map fun ordering => (.singleValue, ordering.expression)
  | .compound members => members.map fun n => (.value, n.expression)
  | .member source _ _ => [(.value, source)]
  | _ => []

/-- The names under which a compound holds its slots. -/
def Expr.labels : Expr → List (Option String)
  | .compound members => members.map Named.name
  | _ => []

namespace Kind

/-- Nodes that are resolved by resolving their slots. -/
def isComposite : Kind → Bool
  | like | likeEscape | logical | not | case | function | convert | aggregation | rowNumber
  | compound => true
  | _ => false

/-- Nodes that are resolved as they stand. -/
def isLeaf : Kind → Bool
  | column | literal | customText | entity | entityReference | entityConstant => true
  | _ => false

end Kind

theorem Expr.slots_of_isLeaf {e : Expr} (leaf : e.kind.isLeaf = true) : e.slots = [] := by
  cases e with
  | column | literal | customText | entity | entityReference | entityConstant => simp [slots]
  | _ => cases leaf

/-- A projection without its name. -/
def Expr.unnamed : Expr → Expr
  | .named ⟨_, e⟩ => e
  | e => e

/-- Another expression under the name of a projection. -/
def Expr.renamed (projection e : Expr) : Expr :=
  match projection with
  | .named ⟨name, _⟩ => .named ⟨name, e⟩
  | _ => e

theorem Expr.unnamed_renamed {e : Expr} (h : e.kind ≠ .named) (projection : Expr) :
    (projection.renamed e).unnamed = e := by
  cases projection with
  | named n =>
    cases n
    rfl
  | _ =>
    cases e with
    | named n => exact absurd rfl h
    | _ => rfl

namespace Statement

/-- The clauses of a statement but for its projection and its tables, in the order in which they
are resolved. -/
def clauses (s : Statement) : List (Position × Expr) :=
  s.condition.toList.map (Position.predicate, ·) ++ s.grouping.toList.map (Position.value, ·) ++
    s.orderings.map (fun ordering => (Position.singleValue, ordering.expression)) ++
    s.top.toList.map (Position.singleValue, ·) ++ s.rowNumber.toList.map (Position.singleValue, ·) ++
    s.rowOffset.toList.map (Position.singleValue, ·)

def slots (s : Statement) : List (Position × Expr) := (.value, s.projection.unnamed) :: s.clauses

end Statement

def Source.statement? : Source → Option Statement
  | .statement _ s => some s
  | _ => none

/-- The statements that are sources of tables. -/
def sourceStatements (tables : List Table) : List Statement :=
  tables.filterMap fun table => table.source.statement?

theorem sourceStatements_cons (table : Table) (tables : List Table) :
    sourceStatements (table :: tables) =
      table.source.statement?.toList ++ sourceStatements tables := by
  cases h : table.source.statement? <;> simp [sourceStatements, h]

theorem mem_sourceStatements_cons {table : Table} {tables : List Table} {s : Statement} :
    s ∈ sourceStatements (table :: tables) ↔
      table.source.statement? = some s ∨ s ∈ sourceStatements tables := by
  simp [sourceStatements]

inductive Node where
  | expression (e : Expr)
  | statement (s : Statement)

namespace Node

/-- The nodes right below a node. -/
def children : Node → List Node
  | .expression (.subStatement s) => [.statement s]
  | .expression e => e.slots.map fun slot => .expression slot.2
  | .statement s =>
    s.slots.map (fun slot => .expression slot.2) ++ (sourceStatements s.tables).map .statement

/-- A property of a node and of all nodes below it. -/
inductive Everywhere (P : Node → Prop) : Node → Prop where
  | intro {n : Node} (here : P n) (below : ∀ child ∈ n.children, Everywhere P child) : Everywhere P n

variable {P Q : Node → Prop} {n : Node}

theorem Everywhere.here (h : n.Everywhere P) : P n := by
  cases h with
  | intro here below => exact here

theorem Everywhere.child (h : n.Everywhere P) {child : Node} (hc : child ∈ n.children) :
    child.Everywhere P := by
  cases h with
  | intro here below => exact below child hc

theorem Everywhere.mono (h : n.Everywhere P) (hpq : ∀ n, P n → Q n) : n.Everywhere Q := by
  induction h with
  | intro here below ih => exact .intro (hpq _ here) ih

/-- Whether a node and all nodes below it pass a test, where none is `depth` levels below. -/
def passes (test : Node → Bool) : Nat → Node → Bool
  | 0, _ => false
  | depth + 1, n => test n && n.children.all (passes test depth)

theorem everywhere_of_passes {test : Node → Bool} (sound : ∀ n, test n = true → P n) {depth : Nat}
    (h : n.passes test depth = true) : n.Everywhere P := by
  induction depth generalizing n with
  | zero => cases h
  | succ depth ih =>
    rw [passes, Bool.and_eq_true, List.all_eq_true] at h
    exact .intro (sound n h.1) fun child hc => ih (h.2 child hc)

theorem Everywhere.and (h : n.Everywhere P) (h' : n.Everywhere Q) :
    n.Everywhere fun n => P n ∧ Q n := by
  induction h with
  | intro here below ih =>
    exact .intro ⟨here, h'.here⟩ fun child hc => ih child hc (h'.child hc)

theorem children_expression {e : Expr} (h : ∀ s, e ≠ .subStatement s) :
    (Node.expression e).children = e.slots.map fun slot => .expression slot.2 := by
  unfold children
  split
  · rename_i s hs
    cases hs
    exact absurd rfl (h _)
  · rename_i hs
    cases hs
    rfl
  · rename_i hs
    cases hs

/-- Below an expression that is no statement there are its slots only. -/
theorem Everywhere.ofSlots {e : Expr} (h : ∀ s, e ≠ .subStatement s) (here : P (.expression e))
    (slots : ∀ slot ∈ e.slots, (Node.expression slot.2).Everywhere P) :
    (Node.expression e).Everywhere P := by
  refine .intro here fun child hc => ?_
  rw [children_expression h] at hc
  obtain ⟨slot, hs, rfl⟩ := List.mem_map.mp hc
  exact slots slot hs

theorem Everywhere.slot {e : Expr} (h : (Node.expression e).Everywhere P)
    {slot : Position × Expr} (hs : slot ∈ e.slots) : (Node.expression slot.2).Everywhere P := by
  refine h.child ?_
  cases e with
  | subStatement s => cases hs
  | _ => exact List.mem_map_of_mem hs

end Node

end Comprehension.Sql
