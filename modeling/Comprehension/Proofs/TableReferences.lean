import Comprehension.Proofs.Construction
import Comprehension.Proofs.Inside

/-!
References to the rows of tables. A reference carries the key of a table that has to be there: the
clauses of a statement see all of its tables and those around it, and a statement that is a source
sees the tables before it only.
-/
namespace Comprehension

namespace Sql

/-- What a statement is made of but for the statements that are its sources. -/
def Statement.contents (s : Statement) : List Node :=
  Node.expression s.projection :: s.clauses.map (fun slot => Node.expression slot.2) ++
    (tableLinks s.tables).flatMap Node.ofLink

namespace Node

/-- Somewhere in the node there is a reference to a table that is neither in its own statement nor
in one around it inside the node. -/
inductive RefersTo (key : Nat) : Node → Prop where
  | reference (type : ValueType) : RefersTo key (.expression (.tableReference key type))
  | part {e : Expr} {n : Node} (mem : n ∈ (Node.expression e).parts) (inner : RefersTo key n) :
      RefersTo key (.expression e)
  | content {s : Statement} {n : Node} (mem : n ∈ s.contents) (inner : RefersTo key n)
      (outer : key ∉ s.tables.map Table.key) : RefersTo key (.statement s)
  | source {s t : Statement} {before after : List Table} {table : Table}
      (split : s.tables = before ++ table :: after) (nested : table.source.statement? = some t)
      (inner : RefersTo key (.statement t)) (outer : key ∉ before.map Table.key) :
      RefersTo key (.statement s)

/-- All tables that a node refers to are visible around it. -/
def ClosedIn (visible : Nat → Prop) (n : Node) : Prop := ∀ key, n.RefersTo key → visible key

end Node

/-- What is visible beside some tables. -/
def withTables (tables : List Table) (visible : Nat → Prop) (key : Nat) : Prop :=
  key ∈ tables.map Table.key ∨ visible key

section Visible

variable {visible : Nat → Prop} {tables : List Table}

theorem withTables_of_visible {key : Nat} (h : visible key) : withTables tables visible key :=
  .inr h

theorem withTables_nil : withTables [] visible = visible := by
  funext key
  simp [withTables]

theorem withTables_append (before after : List Table) :
    withTables (before ++ after) visible = withTables after (withTables before visible) := by
  funext key
  simp only [withTables, List.map_append, List.mem_append]
  grind

end Visible

/-- Kinds of nodes that are neither references nor statements. -/
def Kind.hasOperands : Kind → Bool
  | tableReference | subStatement => false
  | _ => true

section Expressions

variable {visible seen : Nat → Prop} {n : Node} {e : Expr}

theorem Node.ClosedIn.mono (h : n.ClosedIn visible) (more : ∀ key, visible key → seen key) :
    n.ClosedIn seen :=
  fun key refers => more key (h key refers)

theorem Node.ClosedIn.part (h : (Node.expression e).ClosedIn visible)
    (mem : n ∈ (Node.expression e).parts) : n.ClosedIn visible :=
  fun key refers => h key (.part mem refers)

/-- A node that is no reference is closed when everything right below it is. -/
theorem Node.ClosedIn.ofParts (kind : e.kind ≠ .tableReference)
    (parts : ∀ n ∈ (Node.expression e).parts, n.ClosedIn visible) :
    (Node.expression e).ClosedIn visible := by
  intro key refers
  cases refers with
  | reference type => exact absurd rfl kind
  | part mem inner => exact parts _ mem key inner

theorem Node.ClosedIn.operand {operand : Expr} (h : (Node.expression e).ClosedIn visible)
    (mem : operand ∈ e.operands) : (Node.expression operand).ClosedIn visible := by
  refine h.part ?_
  cases e with
  | subStatement s => cases mem
  | _ => exact List.mem_map_of_mem mem

/-- An expression that is neither a reference nor a statement is closed when its operands are. -/
theorem Expr.closedIn_of_operands (kind : e.kind.hasOperands = true)
    (h : ∀ operand ∈ e.operands, (Node.expression operand).ClosedIn visible) :
    (Node.expression e).ClosedIn visible := by
  refine .ofParts ?_ fun n below => ?_
  · intro same
    rw [same] at kind
    cases kind
  · have parts : (Node.expression e).parts = e.operands.map .expression := by
      cases e with
      | subStatement s => cases kind
      | _ => rfl
    rw [parts] at below
    obtain ⟨operand, mem, rfl⟩ := List.mem_map.mp below
    exact h operand mem

theorem Expr.closedIn_binary {op : BinaryOp} {left right : Expr} {type : ValueType}
    (hl : (Node.expression left).ClosedIn visible) (hr : (Node.expression right).ClosedIn visible) :
    (Node.expression (.binary op left right type)).ClosedIn visible :=
  closedIn_of_operands rfl (by simp [operands, slots, hl, hr])

theorem Expr.closedIn_logical {op : LogicalOp} {left right : Expr}
    (hl : (Node.expression left).ClosedIn visible) (hr : (Node.expression right).ClosedIn visible) :
    (Node.expression (.logical op left right)).ClosedIn visible :=
  closedIn_of_operands rfl (by simp [operands, slots, hl, hr])

theorem Expr.closedIn_function {name : String} {args : List Expr} {type : ValueType}
    {isPredicate : Bool} (h : ∀ e ∈ args, (Node.expression e).ClosedIn visible) :
    (Node.expression (.function name args type isPredicate)).ClosedIn visible :=
  closedIn_of_operands rfl (by simpa [operands, slots] using h)

theorem Expr.closedIn_member {source : Expr} {name : String} {type : ValueType}
    (h : (Node.expression source).ClosedIn visible) :
    (Node.expression (.member source name type)).ClosedIn visible :=
  closedIn_of_operands rfl (by simp [operands, slots, h])

theorem Expr.closedIn_compound {members : List Named}
    (h : ∀ n ∈ members, (Node.expression n.expression).ClosedIn visible) :
    (Node.expression (.compound members)).ClosedIn visible :=
  closedIn_of_operands rfl (by simpa [operands, slots] using h)

theorem Expr.closedIn_case {branches : List (Expr × Expr)} {otherwise : Option Expr}
    {type : ValueType}
    (hb : ∀ branch ∈ branches, (Node.expression branch.1).ClosedIn visible ∧
      (Node.expression branch.2).ClosedIn visible)
    (ho : ∀ e, otherwise = some e → (Node.expression e).ClosedIn visible) :
    (Node.expression (.case branches otherwise type)).ClosedIn visible := by
  refine closedIn_of_operands rfl fun operand mem => ?_
  obtain ⟨slot, here, rfl⟩ := List.mem_map.mp mem
  rw [slots, List.mem_append] at here
  rcases here with here | here
  · obtain ⟨branch, listed, here⟩ := List.mem_flatMap.mp here
    simp only [List.mem_cons, List.not_mem_nil, or_false] at here
    rcases here with rfl | rfl
    · exact (hb branch listed).1
    · exact (hb branch listed).2
  · obtain ⟨e, found, rfl⟩ := List.mem_map.mp here
    exact ho e (Option.mem_toList.mp found)

theorem Expr.closedIn_named {name : Option String} (h : (Node.expression e).ClosedIn visible) :
    (Node.expression (.named ⟨name, e⟩)).ClosedIn visible :=
  closedIn_of_operands rfl (by simp [operands, h])

theorem Expr.closedIn_constant (value : Value) (type : ValueType) :
    (Node.expression (.constant value type)).ClosedIn visible :=
  closedIn_of_operands rfl (by simp [operands, slots])

theorem Expr.closedIn_int (n : Int) : (Node.expression (.int n)).ClosedIn visible :=
  closedIn_of_operands rfl (by simp [operands, slots, int])

theorem Expr.closedIn_tableReference {key : Nat} {type : ValueType} (h : visible key) :
    (Node.expression (.tableReference key type)).ClosedIn visible := by
  intro other refers
  cases refers with
  | reference => exact h
  | part mem inner => cases mem

theorem Expr.closedIn_subStatement {s : Statement} :
    (Node.expression (.subStatement s)).ClosedIn visible ↔ (Node.statement s).ClosedIn visible := by
  constructor
  · intro h
    exact h.part List.mem_cons_self
  · intro h
    refine .ofParts (by simp [kind]) fun n mem => ?_
    obtain rfl := List.mem_singleton.mp mem
    exact h

end Expressions

/-- A property of every expression that is written in a statement. -/
structure Statement.Each (P : Expr → Prop) (s : Statement) : Prop where
  projection : P s.projection
  condition : ∀ e, s.condition = some e → P e
  grouping : ∀ e, s.grouping = some e → P e
  orderings : ∀ o ∈ s.orderings, P o.expression
  top : ∀ e, s.top = some e → P e
  rowNumber : ∀ e, s.rowNumber = some e → P e
  rowOffset : ∀ e, s.rowOffset = some e → P e

theorem Statement.each_iff {P : Expr → Prop} {s : Statement} :
    s.Each P ↔ P s.projection ∧ ∀ slot ∈ s.clauses, P slot.2 := by
  simp only [clauses, List.forall_mem_append, List.forall_mem_map, Option.mem_toList]
  constructor
  · rintro ⟨projection, condition, grouping, orderings, top, rowNumber, rowOffset⟩
    exact ⟨projection, ⟨⟨⟨⟨condition, grouping⟩, orderings⟩, top⟩, rowNumber⟩, rowOffset⟩
  · rintro ⟨projection, ⟨⟨⟨⟨condition, grouping⟩, orderings⟩, top⟩, rowNumber⟩, rowOffset⟩
    exact ⟨projection, condition, grouping, orderings, top, rowNumber, rowOffset⟩

section Statements

variable {visible : Nat → Prop}

/-- Each statement that is a source is closed in what is visible around the tables and in the
tables before it. -/
def SourcesClosedIn (visible : Nat → Prop) (tables : List Table) : Prop :=
  ∀ (before : List Table) (table : Table) (after : List Table) (s : Statement),
    tables = before ++ table :: after → table.source.statement? = some s →
    (Node.statement s).ClosedIn (withTables before visible)

theorem sourcesClosedIn_nil : SourcesClosedIn visible [] := by
  intro before table after s split
  simp at split

theorem sourcesClosedIn_cons {table : Table} {tables : List Table} :
    SourcesClosedIn visible (table :: tables) ↔
      (∀ s, table.source.statement? = some s → (Node.statement s).ClosedIn visible) ∧
        SourcesClosedIn (withTables [table] visible) tables := by
  constructor
  · intro h
    constructor
    · intro s nested
      have first := h [] table tables s rfl nested
      rwa [withTables_nil] at first
    · intro before later after s split nested
      have rest := h (table :: before) later after s (by rw [split]; rfl) nested
      rwa [← List.singleton_append, withTables_append] at rest
  · rintro ⟨first, rest⟩ before later after s whole nested
    cases before with
    | nil =>
      obtain ⟨rfl, rfl⟩ := List.cons.inj whole
      rw [withTables_nil]
      exact first s nested
    | cons head before =>
      obtain ⟨rfl, split⟩ := List.cons.inj whole
      rw [← List.singleton_append, withTables_append]
      exact rest before later after s split nested

theorem sourcesClosedIn_append {before after : List Table} :
    SourcesClosedIn visible (before ++ after) ↔
      SourcesClosedIn visible before ∧ SourcesClosedIn (withTables before visible) after := by
  induction before generalizing visible with
  | nil => simp [sourcesClosedIn_nil, withTables_nil]
  | cons table before ih =>
    rw [List.cons_append, sourcesClosedIn_cons, sourcesClosedIn_cons, ih, and_assoc,
      ← withTables_append, List.singleton_append]

/-- The nodes of all joins of tables are closed. -/
def LinksClosedIn (visible : Nat → Prop) (tables : List Table) : Prop :=
  ∀ link ∈ tableLinks tables, ∀ n ∈ Node.ofLink link, n.ClosedIn visible

theorem linksClosedIn_of_nil {tables : List Table} (h : tableLinks tables = []) :
    LinksClosedIn visible tables := by
  intro link mem
  rw [h] at mem
  cases mem

theorem Statement.forall_contents {P : Node → Prop} {s : Statement} :
    (∀ n ∈ s.contents, P n) ↔
      s.Each (fun e => P (.expression e)) ∧
        ∀ link ∈ tableLinks s.tables, ∀ n ∈ Node.ofLink link, P n := by
  simp only [contents, each_iff, List.forall_mem_append, List.forall_mem_cons,
    List.forall_mem_map, List.forall_mem_flatMap]

/-- A statement is closed when its clauses and joins are, among its tables, and its sources, among
the tables before them. -/
theorem Statement.closedIn_iff {s : Statement} :
    (Node.statement s).ClosedIn visible ↔
      s.Each (fun e => (Node.expression e).ClosedIn (withTables s.tables visible)) ∧
        LinksClosedIn (withTables s.tables visible) s.tables ∧
        SourcesClosedIn visible s.tables := by
  rw [← and_assoc]
  refine Iff.trans ?_ (and_congr_left' forall_contents)
  constructor
  · intro h
    constructor
    · intro n mem key refers
      by_cases own : key ∈ s.tables.map Table.key
      · exact .inl own
      · exact .inr (h key (.content mem refers own))
    · intro before table after t split nested key refers
      by_cases own : key ∈ before.map Table.key
      · exact .inl own
      · exact .inr (h key (.source split nested refers own))
  · rintro ⟨contents, sources⟩ key refers
    cases refers with
    | content mem inner outer => exact (contents _ mem key inner).resolve_left outer
    | source split nested inner outer =>
      exact (sources _ _ _ _ split nested key inner).resolve_left outer

end Statements

/-- A tree that a method has put together refers to what its operands refer to. -/
theorem Made.closedIn {visible : Nat → Prop} {parts : List Node}
    (closed : ∀ n ∈ parts, n.ClosedIn visible) {n : Node} (h : Composed parts n) :
    n.ClosedIn visible := by
  induction h with
  | part mem => exact closed _ mem
  | node kind worded slots ih =>
    rename_i e
    have composed : e.kind.hasOperands = true := by
      cases e with
      | tableReference | subStatement => cases kind
      | _ => rfl
    have operands : e.operands = e.slots.map Prod.snd := by
      cases e with
      | named | entityConstant | call => cases kind
      | _ => rfl
    refine Expr.closedIn_of_operands composed fun operand below => ?_
    rw [operands] at below
    obtain ⟨slot, mem, rfl⟩ := List.mem_map.mp below
    exact ih slot mem

end Sql

namespace Method

open Sql (Call Expr Node)

namespace Transformer

/-- The methods that can be registered by hand without writing one. -/
inductive ReadyMade : Transformer → Prop where
  | function (name : String) : ReadyMade (function name)
  | predicate (name : String) : ReadyMade (predicate name)
  | literal (n : Int) : ReadyMade (literal n)
  | customText (text : String) : ReadyMade (customText text)
  | argument (index : Nat) : ReadyMade (argument index)
  | object : ReadyMade object
  | keep : ReadyMade keep

end Transformer

namespace Registry

/-- A method puts a reference to a table into what a call stands for, though none of the operands
of the call refers to the table. -/
def Invents (registry : Registry) (key : Nat) : Prop :=
  ∃ c e, registry.transform c = .ok e ∧ (Node.expression e).RefersTo key ∧
    ∀ operand ∈ Transformer.operands c, ¬ (Node.expression operand).RefersTo key

/-- Whether all methods are built in or ready-made, under whatever signatures. -/
def IsStandard (registry : Registry) : Prop :=
  ∀ entry ∈ registry.entries, entry ∈ builtIn ∨ entry.2.ReadyMade

variable {registry : Registry} {visible : Nat → Prop} {c : Call} {e : Expr}

/-- What a call stands for is closed where its operands are, but for what methods make up. -/
theorem closedIn_of_transform (invented : ∀ key, registry.Invents key → visible key)
    (operands : ∀ operand ∈ Transformer.operands c, (Node.expression operand).ClosedIn visible)
    (h : registry.transform c = .ok e) : (Node.expression e).ClosedIn visible := by
  intro key refers
  by_cases passed : ∃ operand ∈ Transformer.operands c, (Node.expression operand).RefersTo key
  · obtain ⟨operand, mem, refers⟩ := passed
    exact operands operand mem key refers
  · refine invented key ⟨c, e, h, refers, fun operand mem refers => ?_⟩
    exact passed ⟨operand, mem, refers⟩

theorem IsStandard.register (h : registry.IsStandard) (signature : Signature) {t : Transformer}
    (readyMade : t.ReadyMade) : (registry.register signature t).IsStandard := by
  intro entry mem
  rcases mem_insert mem with rfl | mem
  · exact .inr readyMade
  · exact h entry mem

end Registry

end Method

end Comprehension
