import Comprehension.Query.Basic

/-!
Query trees as text, the way messages show them.
-/
namespace Comprehension.Query

def BinaryOp.text : BinaryOp → String
  | equal => "=="
  | notEqual => "!="
  | lessThan => "<"
  | lessThanOrEqual => "<="
  | greaterThan => ">"
  | greaterThanOrEqual => ">="
  | andAlso => "&&"
  | orElse => "||"
  | add => "+"
  | subtract => "-"
  | multiply => "*"
  | divide => "/"
  | modulo => "%"
  | coalesce => "??"

mutual

def Expr.text : Expr → String
  | .constant value _ => value.text
  | .queryable itemType => "Table<" ++ itemType ++ ">"
  | .item name _ => name
  | .member source name _ => source.text ++ "." ++ name
  | .binary op left right _ => "(" ++ left.text ++ " " ++ op.text ++ " " ++ right.text ++ ")"
  | .not operand => "!" ++ operand.text
  | .conditional test ifTrue ifFalse _ =>
    "IIF(" ++ test.text ++ ", " ++ ifTrue.text ++ ", " ++ ifFalse.text ++ ")"
  | .call object declaringType method _ arguments _ =>
    receiverText declaringType object ++ "." ++ method ++ "(" ++ argumentsText arguments ++ ")"
  | .record members => "new \x7b " ++ membersText members ++ " \x7d"
  | .subQuery model => "\x7b" ++ model.text ++ "\x7d"

/-- What a method is called on: an object, or its declaring type. -/
def receiverText (declaringType : String) : Option Expr → String
  | none => declaringType
  | some object => object.text

def argumentsText : List Expr → String
  | [] => ""
  | [argument] => argument.text
  | argument :: next :: rest => argument.text ++ ", " ++ argumentsText (next :: rest)

def membersText : List (String × Expr) → String
  | [] => ""
  | [(name, member)] => name ++ " = " ++ member.text
  | (name, member) :: next :: rest =>
    name ++ " = " ++ member.text ++ ", " ++ membersText (next :: rest)

def Source.text : Source → String
  | ⟨itemName, _, source⟩ => "from " ++ itemName ++ " in " ++ source.text

def orderingsText : List Ordering → String
  | [] => ""
  | [⟨expression, direction⟩] => " " ++ expression.text ++ " " ++ direction.text
  | ⟨expression, direction⟩ :: next :: rest =>
    " " ++ expression.text ++ " " ++ direction.text ++ "," ++ orderingsText (next :: rest)

def clausesText : List Clause → String
  | [] => ""
  | clause :: rest => " " ++ clause.text ++ clausesText rest

def Clause.text : Clause → String
  | .source source => source.text
  | .filter predicate => "where " ++ predicate.text
  | .orderBy orderings => "orderby" ++ orderingsText orderings
  | .bind name expression => "let " ++ name ++ " = " ++ expression.text
  | .keyJoin itemName _ _ _ _ => "join " ++ itemName
  | .groupJoin itemName _ => "join into " ++ itemName

def Yield.text : Yield → String
  | .select selector => "select " ++ selector.text
  | .group key element => "group " ++ element.text ++ " by " ++ key.text

def Model.text : Model → String
  | ⟨main, clauses, yield, operators⟩ =>
    main.text ++ clausesText clauses ++ " " ++ yield.text ++
      String.join (operators.map fun operator => " => " ++ operator.name ++ "()")

end

end Comprehension.Query
