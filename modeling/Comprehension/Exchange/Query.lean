import Comprehension.Exchange.Value

/-!
Reading query trees out of documents.
-/
namespace Comprehension.Query

open Document

def BinaryOp.words : List (String × BinaryOp) :=
  [("Equal", .equal), ("NotEqual", .notEqual), ("LessThan", .lessThan),
   ("LessThanOrEqual", .lessThanOrEqual), ("GreaterThan", .greaterThan),
   ("GreaterThanOrEqual", .greaterThanOrEqual), ("AndAlso", .andAlso), ("OrElse", .orElse),
   ("Add", .add), ("Subtract", .subtract), ("Multiply", .multiply), ("Divide", .divide),
   ("Modulo", .modulo), ("Coalesce", .coalesce)]

def BinaryOp.ofDocument (d : Document) : Reading BinaryOp := do
  choice BinaryOp.words (← d.bareTag .json)

/-- The operators that are a word. -/
def Operator.words : List (String × Operator) :=
  [("Count", .count), ("LongCount", .longCount), ("Distinct", .distinct), ("Min", .min),
   ("Max", .max), ("Sum", .sum), ("Average", .average)]

/-- A type in a query. -/
def readType (d : Document) : Reading ValueType := ValueType.ofDocument .json d

/-- Whether an empty result yields a default. -/
def readOrDefault (d : Document) : Reading Bool := do
  let [some orDefault] ← d.parts .json ["return_default_when_empty"] | throw .malformed
  orDefault.asBool

/-- A list that may be left out. -/
def listOrNone {α : Type} (read : Document → Reading α) : Option Document → Reading (List α)
  | none => .ok []
  | some d => each read d

mutual

def Expr.ofDocumentWithin : Nat → Document → Reading Expr
  | 0, _ => .error .malformed
  | fuel + 1, d => do
    match ← d.variant with
    | ("Constant", some d) =>
      let [some value, some type] ← d.parts .json ["value", "ty"] | throw .malformed
      return .constant (← Value.ofDocument value) (← readType type)
    | ("Queryable", some d) =>
      let [some itemType] ← d.parts .json ["item_type"] | throw .malformed
      return .queryable (← itemType.asText)
    | ("QuerySource", some d) =>
      let [some name, some type] ← d.parts .json ["name", "ty"] | throw .malformed
      return .item (← name.asText) (← readType type)
    | ("Member", some d) =>
      let [some source, some member, some type] ← d.parts .json ["source", "member", "ty"]
        | throw .malformed
      return .member (← Expr.ofDocumentWithin fuel source) (← member.asText) (← readType type)
    | ("Binary", some d) =>
      let [some op, some left, some right, some type] ← d.parts .json ["op", "left", "right", "ty"]
        | throw .malformed
      return .binary (← BinaryOp.ofDocument op) (← Expr.ofDocumentWithin fuel left)
        (← Expr.ofDocumentWithin fuel right) (← readType type)
    | ("Not", some operand) => return .not (← Expr.ofDocumentWithin fuel operand)
    | ("Conditional", some d) =>
      let [some test, some ifTrue, some ifFalse, some type] ←
        d.parts .json ["test", "if_true", "if_false", "ty"] | throw .malformed
      return .conditional (← Expr.ofDocumentWithin fuel test) (← Expr.ofDocumentWithin fuel ifTrue)
        (← Expr.ofDocumentWithin fuel ifFalse) (← readType type)
    | ("MethodCall", some d) =>
      let [object, some declaringType, some method, some parameterTypes, some arguments,
          some type] ←
        d.parts .json ["object", "declaring_type", "method", "parameter_types", "arguments", "ty"]
        | throw .malformed
      return .call (← ifGiven (Expr.ofDocumentWithin fuel) object) (← declaringType.asText)
        (← method.asText) (← parameterTypes.each readType)
        (← arguments.each (Expr.ofDocumentWithin fuel)) (← readType type)
    | ("New", some d) =>
      let [some members] ← d.parts .json ["members"] | throw .malformed
      return .record (← members.each (memberOfDocumentWithin fuel))
    | ("SubQuery", some model) => return .subQuery (← Model.ofDocumentWithin fuel model)
    | _ => throw .malformed

/-- A member of a record: its name and its value. -/
def memberOfDocumentWithin : Nat → Document → Reading (String × Expr)
  | 0, _ => .error .malformed
  | fuel + 1, d => do
    let [name, value] ← d.asList | throw .malformed
    return (← name.asText, ← Expr.ofDocumentWithin fuel value)

def Source.ofDocumentWithin : Nat → Document → Reading Source
  | 0, _ => .error .malformed
  | fuel + 1, d => do
    let [some itemName, some itemType, some source] ← d.parts .json ["item_name", "item_type", "source"]
      | throw .malformed
    return ⟨← itemName.asText, ← readType itemType, ← Expr.ofDocumentWithin fuel source⟩

def Ordering.ofDocumentWithin : Nat → Document → Reading Ordering
  | 0, _ => .error .malformed
  | fuel + 1, d => do
    let [some expression, some direction] ← d.parts .json ["expression", "direction"] | throw .malformed
    return ⟨← Expr.ofDocumentWithin fuel expression, ← Direction.ofDocument direction⟩

def Clause.ofDocumentWithin : Nat → Document → Reading Clause
  | 0, _ => .error .malformed
  | fuel + 1, d => do
    match ← d.variant with
    | ("AdditionalFrom", some source) => return .source (← Source.ofDocumentWithin fuel source)
    | ("Where", some predicate) => return .filter (← Expr.ofDocumentWithin fuel predicate)
    | ("OrderBy", some orderings) =>
      return .orderBy (← orderings.each (Ordering.ofDocumentWithin fuel))
    | ("Let", some d) =>
      let [some name, some expression] ← d.parts .json ["name", "expression"] | throw .malformed
      return .bind (← name.asText) (← Expr.ofDocumentWithin fuel expression)
    | ("Join", some d) =>
      let [some itemName, some itemType, some inner, some outerKey, some innerKey] ←
        d.parts .json ["item_name", "item_type", "inner_sequence", "outer_key", "inner_key"]
        | throw .malformed
      return .keyJoin (← itemName.asText) (← readType itemType) (← Expr.ofDocumentWithin fuel inner)
        (← Expr.ofDocumentWithin fuel outerKey) (← Expr.ofDocumentWithin fuel innerKey)
    | ("GroupJoin", some d) =>
      let [some itemName, some inner] ← d.parts .json ["item_name", "inner_sequence"] | throw .malformed
      return .groupJoin (← itemName.asText) (← Expr.ofDocumentWithin fuel inner)
    | _ => throw .malformed

def Yield.ofDocumentWithin : Nat → Document → Reading Yield
  | 0, _ => .error .malformed
  | fuel + 1, d => do
    match ← d.variant with
    | ("Select", some selector) => return .select (← Expr.ofDocumentWithin fuel selector)
    | ("Group", some d) =>
      let [some key, some element] ← d.parts .json ["key", "element"] | throw .malformed
      return .group (← Expr.ofDocumentWithin fuel key) (← Expr.ofDocumentWithin fuel element)
    | _ => throw .malformed

def Operator.ofDocumentWithin : Nat → Document → Reading Operator
  | 0, _ => .error .malformed
  | fuel + 1, d => do
    match ← d.variant with
    | ("Take", some count) => return .take (← Expr.ofDocumentWithin fuel count)
    | ("Skip", some offset) => return .skip (← Expr.ofDocumentWithin fuel offset)
    | ("First", some d) => return .first (← readOrDefault d)
    | ("Single", some d) => return .single (← readOrDefault d)
    | ("Other", some name) => return .other (← name.asText)
    | (tag, content) =>
      if Form.json.isBare content then choice Operator.words tag else throw .malformed

def Model.ofDocumentWithin : Nat → Document → Reading Model
  | 0, _ => .error .malformed
  | fuel + 1, d => do
    let [some main, clauses, some yield, operators] ←
      d.parts .json ["main_from", "body_clauses", "select_or_group", "result_operators"]
      | throw .malformed
    return ⟨← Source.ofDocumentWithin fuel main,
      ← listOrNone (Clause.ofDocumentWithin fuel) clauses, ← Yield.ofDocumentWithin fuel yield,
      ← listOrNone (Operator.ofDocumentWithin fuel) operators⟩

end

/-- Enough steps to read a document: each goes at least one level down. -/
def readingSteps (d : Document) : Nat := d.depth + 1

def Expr.ofDocument (d : Document) : Reading Expr := Expr.ofDocumentWithin (readingSteps d) d

def Source.ofDocument (d : Document) : Reading Source := Source.ofDocumentWithin (readingSteps d) d

def Ordering.ofDocument (d : Document) : Reading Ordering :=
  Ordering.ofDocumentWithin (readingSteps d) d

def Clause.ofDocument (d : Document) : Reading Clause := Clause.ofDocumentWithin (readingSteps d) d

def Operator.ofDocument (d : Document) : Reading Operator :=
  Operator.ofDocumentWithin (readingSteps d) d

def Model.ofDocument (d : Document) : Reading Model := Model.ofDocumentWithin (readingSteps d) d

end Comprehension.Query
