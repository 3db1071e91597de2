import Comprehension.Method.Registry

/-!
String methods. Queries count characters from zero, the functions of a command from one; and `LEN`
ignores trailing blanks, so lengths are taken of the text with a mark appended.
-/
namespace Comprehension.Method.Strings

open Sql (Expr Call)

/-- `(LEN((value + '#')) - 1)`. -/
def length (value : Expr) : Expr :=
  .subtract (.valueFunction "LEN" [.concat value (.text "#")] .int32) (.int 1)

def oneBased (index : Expr) : Expr := .add index (.int 1)

/-- The second argument, or how much of the value lies from `start` on. -/
def lengthOrRest (c : Call) (value start : Expr) : Expr :=
  match c.arguments[1]? with
  | some length => length
  | none => .subtract (length value) start

def substring : Transformer := fun c => do
  let value ← c.instance?
  let start ← c.argument 0
  return .valueFunction "SUBSTRING" [value, oneBased start, lengthOrRest c value start] .string

def remove : Transformer := fun c => do
  let value ← c.instance?
  let start ← c.argument 0
  return .valueFunction "STUFF"
    [value, oneBased start, lengthOrRest c value start, .text ""] .string

def toUpper : Transformer := fun c => do
  return .valueFunction "UPPER" [← c.instance?] .string

def toLower : Transformer := fun c => do
  return .valueFunction "LOWER" [← c.instance?] .string

def trim : Transformer := fun c => do
  return .valueFunction "LTRIM" [.valueFunction "RTRIM" [← c.instance?] .string] .string

def lengthOf : Transformer := fun c => do
  return length (← c.instance?)

/-- The first occurrence of `value` in `text`, from `start` on and among the first `start + count`
characters where these are given. An empty value occurs where the search starts. -/
def indexIn (text value : Expr) (start count : Option Expr) : Expr :=
  let valueIsEmpty := Expr.equal (length value) (.int 0)
  match start with
  | none =>
    .caseWhen valueIsEmpty (.int 0)
      (.subtract (.valueFunction "CHARINDEX" [value, text] .int32) (.int 1))
  | some start =>
    let searched :=
      match count with
      | some count => .valueFunction "SUBSTRING" [text, .int 1, .add start count] .string
      | none => text
    .caseWhen
      (.and valueIsEmpty (.binaryOf .lessThanOrEqual (oneBased start) (length searched)))
      start
      (.subtract (.valueFunction "CHARINDEX" [value, searched, oneBased start] .int32) (.int 1))

def indexOf : Transformer := fun c => do
  let text ← c.instance?
  let value ← c.argument 0
  return indexIn text value c.arguments[1]? c.arguments[2]?

/-- `STUFF` is null one past the end, so there the text is appended. -/
def insert : Transformer := fun c => do
  let text ← c.instance?
  let index ← c.argument 0
  let value ← c.argument 1
  return .caseWhen
    (.equal (oneBased (length text)) (oneBased index))
    (.concat text value)
    (.valueFunction "STUFF" [text, oneBased index, .int 0, value] .string)

/-- The string methods and their transformers. -/
def methods : List (Signature × Transformer) :=
  [(.method "String" "Substring" ["Int32"], substring),
   (.method "String" "Substring" ["Int32", "Int32"], substring),
   (.method "String" "Remove" ["Int32"], remove),
   (.method "String" "Remove" ["Int32", "Int32"], remove),
   (.method "String" "ToUpper" [], toUpper),
   (.method "String" "ToLower" [], toLower),
   (.method "String" "Trim" [], trim),
   (.method "String" "IndexOf" ["String"], indexOf),
   (.method "String" "IndexOf" ["String", "Int32"], indexOf),
   (.method "String" "IndexOf" ["String", "Int32", "Int32"], indexOf),
   (.method "String" "IndexOf" ["Char"], indexOf),
   (.method "String" "IndexOf" ["Char", "Int32"], indexOf),
   (.method "String" "IndexOf" ["Char", "Int32", "Int32"], indexOf),
   (.method "String" "Insert" ["Int32", "String"], insert),
   (.property "String" "Length", lengthOf)]

end Comprehension.Method.Strings
