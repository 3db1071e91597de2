import Comprehension.Method.SignatureReader
import Comprehension.Sql.Kind
import Comprehension.Text.Quoted

/-!
Why a query cannot be compiled. An `Error` records the cause; its wording is `Error.message`.
-/
namespace Comprehension

open Method (Signature SignatureFault)
open Sql (Kind)

/-- Why a method rejects an argument. -/
inductive ArgumentFault where
  | noSqlType (target : ValueType)
  | languageNotLiteral (found : Kind)
deriving DecidableEq

/-- Clauses without a counterpart in a statement. -/
inductive ClauseFault where
  /-- A source clause over something other than a table or a sub-query, shown as text. -/
  | source (item text : String)
  | keyJoin (item : String)
  | groupJoin (item : String)
deriving DecidableEq

inductive OperatorFault where
  | afterSingleValue
  | noCounterpart
deriving DecidableEq

/-- What a schema may fail to map. -/
inductive MappedItem where
  | type
  | member
  | relation
deriving DecidableEq

/-- Why an expression has no place where it stands. -/
inductive Misplacement where
  /-- Shown as the query writes it. -/
  | written (text : String)
  | exposedMember (member tableAlias : String)
  | memberAccess (member : String)
  | navigation (member tableAlias : String)
  | comparedWithEntity
  | entityAsSingleValue
  | notResolved
  | unresolvedSource (type : String)
  | unresolvedJoin (member : String)
deriving DecidableEq

/-- Statements, scopes and calls that are not well formed. -/
inductive Violation where
  | noProjection
  | noDataShape
  | noOperand
  | conditionNotBoolean (kind : Kind) (type : ValueType)
  | itemNotInScope (name : String)
  | tableNotInScope (key : Nat)
  | noInstance (signature : Signature) (call : String)
  | noArgument (signature : Signature) (index : Nat) (call : String)
  | sourceLeftUnresolved (type : String)
  | joinedSourceLeftUnresolved (type : String)
  | endlessSource
deriving DecidableEq

inductive Error where
  | unsupportedMethod (signature : Signature) (call : String)
  | invalidArgument (signature : Signature) (fault : ArgumentFault)
  | unsupportedClause (fault : ClauseFault)
  | unsupportedOperator (operator : String) (fault : OperatorFault)
  | unmapped (item : MappedItem) (name : String)
  | unsupportedExpression (kind : Kind) (why : Misplacement)
  | unsupportedCriterion (kind : Kind)
  | contract (violation : Violation)
  | invalidSignature (fault : SignatureFault)
deriving DecidableEq

def ArgumentFault.message : ArgumentFault → String
  | noSqlType target => "there is no SQL type for conversion target '" ++ target.name ++ "'"
  | languageNotLiteral found =>
    "the language argument must be a literal value, found '" ++ found.name ++ "'"

/-- The clause as it is written. -/
def ClauseFault.clause : ClauseFault → String
  | source item text => "from " ++ item ++ " in " ++ text
  | keyJoin item => "join " ++ item
  | groupJoin item => "join into " ++ item

def ClauseFault.reason : ClauseFault → String
  | source .. => "only tables and sub-queries can be used as query sources"
  | keyJoin _ =>
    "joins on explicit keys are not supported; use navigation members or a where clause"
  | groupJoin _ => "group joins are not supported"

def OperatorFault.message : OperatorFault → String
  | afterSingleValue => "no operator can follow an operator that yields a single value"
  | noCounterpart => "no translation is registered for this operator"

def MappedItem.name : MappedItem → String
  | type => "type"
  | member => "member"
  | relation => "relation"

def Misplacement.message : Misplacement → String
  | written text => text
  | exposedMember member tableAlias =>
    "member '" ++ member ++ "' of an entity exposed by sub-statement '" ++ tableAlias ++ "'"
  | memberAccess member => "access to member '" ++ member ++ "'"
  | navigation member tableAlias =>
    "navigation '" ++ member ++ "' from table '" ++ tableAlias ++
      "', which is not a source of this statement"
  | comparedWithEntity => "only entities can be compared with entities"
  | entityAsSingleValue => "an entity cannot be used where a single value is required"
  | notResolved => "the expression was not resolved before generation"
  | unresolvedSource type => "table source for '" ++ type ++ "'"
  | unresolvedJoin member => "join for member '" ++ member ++ "'"

def Violation.message : Violation → String
  | noProjection => "a statement requires a select projection"
  | noDataShape => "a statement requires a data info"
  | noOperand => "a result operator requires a select projection"
  | conditionNotBoolean kind type =>
    "the where condition must be boolean, found '" ++ kind.name ++ "' of type " ++ type.name
  | itemNotInScope name => "query source '" ++ name ++ "' is not in scope"
  | tableNotInScope key => "table TableKey(" ++ toString key ++ ") is not part of this statement"
  | noInstance signature call =>
    "method '" ++ signature.text ++ "' requires an instance: " ++ call
  | noArgument signature index call =>
    "method '" ++ signature.text ++ "' expects argument " ++ toString index ++ ": " ++ call
  | sourceLeftUnresolved type => "the resolver left table '" ++ type ++ "' unresolved"
  | joinedSourceLeftUnresolved type =>
    "the resolver left joined table '" ++ type ++ "' unresolved"
  | endlessSource => "the table sources refer to each other without end"

/-- The word for an expectation in the message of a signature fault. -/
def expectationCode : Text.Expectation → String
  | .run => "TakeWhile1"
  | .mark => "Char"
  | .progress => "SeparatedList"
  | .endOfText => "Eof"

/-- The wording of every error. -/
def Error.message : Error → String
  | unsupportedMethod signature call =>
    "The method '" ++ signature.text ++ "' is not supported by this code generator, and no custom" ++
      " transformer has been registered. Expression: '" ++ call ++ "'"
  | invalidArgument signature fault =>
    "Invalid argument for method '" ++ signature.text ++ "': " ++ fault.message
  | unsupportedClause fault =>
    "Clause '" ++ fault.clause ++ "' is not supported: " ++ fault.reason
  | unsupportedOperator operator fault =>
    "Result operator '" ++ operator ++ "' is not supported: " ++ fault.message
  | unmapped item name => "No mapping found for " ++ item.name ++ " '" ++ name ++ "'"
  | unsupportedExpression kind why =>
    "Expression kind '" ++ kind.name ++ "' is not supported: " ++ why.message
  | unsupportedCriterion kind =>
    "Criterion kind '" ++ kind.name ++ "' is not supported: a value cannot be used as a predicate"
  | contract violation => "Contract violation: " ++ violation.message
  | invalidSignature fault =>
    "Invalid method signature '" ++ fault.input ++ "': Error(Error \x7b input: " ++
      Text.quoted fault.rest ++ ", code: " ++ expectationCode fault.expected ++ " \x7d)"

end Comprehension
