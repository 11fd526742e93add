import DocBlock.Text.Lines

/-! # Type annotations

A type annotation as it is written on a declaration. Inline object and function types have members
and parameters of their own, so they are nodes of the declaration tree and an annotation only names
their node. -/

namespace DocBlock

/-- The position of a node in its declaration tree. -/
abbrev NodeId := Nat

/-- A type annotation. -/
inductive TypeExpr where
  /-- A keyword, `this` or a literal type. -/
  | intrinsic (text : String)
  /-- A named type, perhaps qualified, with its generic arguments. -/
  | reference (name : String) (args : List TypeExpr)
  /-- An array of its element. -/
  | array (element : TypeExpr)
  /-- A union of its members. -/
  | union (members : List TypeExpr)
  /-- A `typeof` query, as written. -/
  | query (text : String)
  /-- An inline object type. -/
  | object (node : NodeId)
  /-- An inline function or constructor type. -/
  | function (node : NodeId)
  /-- Any other type, as written. -/
  | other (text : String)
  deriving Inhabited, Repr

namespace TypeExpr

/-- Whether an annotation is a union. -/
def isUnion : TypeExpr → Bool
  | union _ => true
  | _ => false

mutual

/-- The annotation in the spelling of the source language; inline types are abridged. -/
def text : TypeExpr → String
  | intrinsic text => text
  | query text => text
  | other text => text
  | reference name [] => name
  | reference name (arg :: args) => name ++ "<" ++ Text.joinStrings ", " (texts (arg :: args)) ++ ">"
  | array element =>
    if element.isUnion then "(" ++ text element ++ ")[]" else text element ++ "[]"
  | union members => Text.joinStrings " | " (texts members)
  | object _ => "\x7b...\x7d"
  | function _ => "(...) => ..."

/-- The spellings of several annotations. -/
def texts : List TypeExpr → List String
  | [] => []
  | type :: types => text type :: texts types

end

/-- Whether the annotated value takes parameters, which an inline function type does. -/
def takesParameters : TypeExpr → Bool
  | function _ => true
  | _ => false

/-- Whether the annotation says that no value is produced. -/
def isVoid : TypeExpr → Bool
  | intrinsic name => name == "void" || name == "never"
  | _ => false

mutual

/-- The nodes of the inline types in an annotation, from left to right. -/
def inlineNodes : TypeExpr → List NodeId
  | reference _ args => allInlineNodes args
  | array element => inlineNodes element
  | union members => allInlineNodes members
  | object node => [node]
  | function node => [node]
  | intrinsic _ => []
  | query _ => []
  | other _ => []

/-- The nodes of the inline types in several annotations. -/
def allInlineNodes : List TypeExpr → List NodeId
  | [] => []
  | type :: types => inlineNodes type ++ allInlineNodes types

end

end TypeExpr

end DocBlock
