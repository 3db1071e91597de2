/-!
Kinds of nodes, as messages name them.
-/
namespace Comprehension.Sql

inductive Kind where
  | column
  | constant
  | literal
  | customText
  | entity
  | entityReference
  | entityConstant
  | navigation
  | binary
  | like
  | likeEscape
  | logical
  | not
  | case
  | function
  | convert
  | aggregation
  | rowNumber
  | named
  | compound
  | subStatement
  | tableReference
  | member
  | methodCall
  /-- A table of a query tree outside a source clause. -/
  | queryable
  /-- A table source without a mapping. -/
  | unresolvedSource
  /-- A join without a mapping. -/
  | unresolvedJoin
deriving DecidableEq, Repr

def Kind.name : Kind → String
  | column => "Column"
  | constant => "Constant"
  | literal => "Literal"
  | customText => "CustomText"
  | entity => "Entity"
  | entityReference => "EntityReference"
  | entityConstant => "EntityConstant"
  | navigation => "EntityRefMember"
  | binary => "BinaryCondition"
  | like => "Like"
  | likeEscape => "LikeEscape"
  | logical => "ComplexCriterion"
  | not => "NotCriterion"
  | case => "Case"
  | function => "SqlFunction"
  | convert => "Convert"
  | aggregation => "Aggregation"
  | rowNumber => "RowNumber"
  | named => "NamedExpression"
  | compound => "Compound"
  | subStatement => "SubStatement"
  | tableReference => "TableReference"
  | member => "MemberAccess"
  | methodCall => "MethodCall"
  | queryable => "Queryable"
  | unresolvedSource => "UnresolvedTableInfo"
  | unresolvedJoin => "UnresolvedJoinInfo"

end Comprehension.Sql
