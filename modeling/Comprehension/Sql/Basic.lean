import Comprehension.Method.Signature
import Comprehension.Query.Basic
import Comprehension.Sql.Kind

/-!
Statement trees: the SQL side of a query. Before resolution a tree may hold references to the items
of tables, member accesses and sources that are not mapped; after it, columns, entities and joins.
-/
namespace Comprehension.Sql

open Method (Signature)
open Query (Direction)

inductive BinaryOp where
  | equal
  | notEqual
  | lessThan
  | lessThanOrEqual
  | greaterThan
  | greaterThanOrEqual
  | add
  | subtract
  | multiply
  | divide
  | modulo
  /-- Joins two texts; spelled by the dialect. -/
  | concat
deriving DecidableEq, Repr

inductive LogicalOp where
  | and
  | or
deriving DecidableEq, Repr

inductive Aggregate where
  | count
  | min
  | max
  | sum
  | average
deriving DecidableEq, Repr

inductive JoinKind where
  | inner
  | left
deriving DecidableEq, Repr

/-- A column of the table with the owning alias. -/
structure Column where
  type : ValueType
  owner : String
  name : String
  isPrimaryKey : Bool
deriving DecidableEq, Repr

/-- A mapped entity: one row of a table, spelled as its columns. -/
structure Entity where
  itemType : String
  tableAlias : String
  /-- The name it is projected under, which starts the names of its columns. -/
  name : Option String
  primaryKey : Column
  columns : List Column
deriving DecidableEq, Repr

/-- Text that is written into the command and is no parameter. -/
inductive Literal where
  | int (n : Int)
  | string (s : String)
  | null
deriving DecidableEq, Repr

/-- What a statement yields. -/
inductive Shape where
  /-- Any number of rows. -/
  | sequence (itemType : ValueType)
  /-- At most one row. -/
  | singleValue (type : ValueType) (orDefault : Bool)
  /-- One computed value. -/
  | scalar (type : ValueType)
deriving DecidableEq, Repr

mutual

inductive Expr where
  | column (column : Column)
  /-- A value that becomes a parameter. -/
  | constant (value : Value) (type : ValueType)
  | literal (literal : Literal)
  | customText (text : String) (type : ValueType)
  | entity (entity : Entity)
  /-- An entity that a sub-statement exposes, addressed through the alias of the sub-statement. -/
  | entityReference (tableAlias : String) (name : Option String) (entity : Entity)
  /-- A constant domain object, compared and written by its primary key. -/
  | entityConstant (type : ValueType) (value : Value) (primaryKey : Expr)
  /-- The step from an entity to a related one; resolution turns it into a join. -/
  | navigation (entity : Entity) (member : String) (type : ValueType)
  | binary (op : BinaryOp) (left right : Expr) (type : ValueType)
  | like (expression pattern : Expr)
  /-- Escapes the wildcards of a pattern that is known at run time only. -/
  | likeEscape (value : Expr)
  | logical (op : LogicalOp) (left right : Expr)
  | not (operand : Expr)
  /-- Pairs of a test and a value. -/
  | case (branches : List (Expr × Expr)) (otherwise : Option Expr) (type : ValueType)
  | function (name : String) (args : List Expr) (type : ValueType) (isPredicate : Bool)
  | convert (target : String) (expression : Expr) (type : ValueType)
  | aggregation (function : Aggregate) (expression : Expr) (type : ValueType)
  | rowNumber (orderings : List Ordering)
  | named (named : Named)
  | compound (members : List Named)
  | subStatement (statement : Statement)
  /-- The item of a table, by the key of the table. -/
  | tableReference (key : Nat) (type : ValueType)
  | member (source : Expr) (name : String) (type : ValueType)
  /-- A call that no registered method has replaced. -/
  | call (call : Call)

structure Named where
  name : Option String
  expression : Expr

structure Ordering where
  expression : Expr
  direction : Direction

structure Call where
  signature : Signature
  object : Option Expr
  arguments : List Expr
  type : ValueType
  /-- The call as the query writes it. -/
  text : String

/-- Where the rows of a table come from. -/
inductive Source where
  | unresolved (itemType : String)
  | table (itemType tableName tableAlias : String)
  | statement (tableAlias : String) (statement : Statement)

/-- How a table is joined: not mapped yet, or to a source on the equality of two keys, the one of
the table it hangs off and its own. -/
inductive Link where
  | unresolved (origin : Entity) (member : String)
  | resolved (source : Source) (leftKey rightKey : Expr)

/-- A joined table, under the member that leads to it, with the joins that hang off it. -/
structure Join where
  member : String
  kind : JoinKind
  link : Link
  joins : List Join

structure Table where
  key : Nat
  source : Source
  kind : JoinKind
  joins : List Join

structure Statement where
  projection : Expr
  tables : List Table
  condition : Option Expr
  grouping : Option Expr
  orderings : List Ordering
  top : Option Expr
  isDistinct : Bool
  /-- The row number of a paged source. -/
  rowNumber : Option Expr
  /-- How many rows paging has skipped. -/
  rowOffset : Option Expr
  shape : Shape

end

end Comprehension.Sql
