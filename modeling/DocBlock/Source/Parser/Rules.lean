import DocBlock.Source.Parser.Basic

/-! # The rules that depend on each other

Types, expressions, patterns, statements and elements are written in terms of each other. Each of
these rules refers to the others through a record of parsers, `Rules`, and the records are tied
together by depth of nesting where the grammar is complete. -/

namespace DocBlock.Source

/-- What has been read of an expression. -/
structure Expression where
  /-- The place where it starts. -/
  start : List Char
  /-- The place where it ends. -/
  stop : List Char
  /-- The kind of literal, if it is nothing but one. -/
  literal : Option LiteralKind := none
  /-- The name, if it is nothing but one. -/
  name : Option String := none
  /-- Whether it denotes one place that can be assigned to. -/
  place : Bool := false
  /-- Whether it can be read as what an assignment assigns to: a place or a pattern of places. -/
  target : Bool := false
  /-- Whether it is an assignment that can be read as a target with its default value. -/
  defaulted : Bool := false
  /-- Whether it is an object one of whose properties has a default value, as in a pattern. -/
  holdsDefault : Bool := false
  /-- Whether it is a literal or a binary expression, perhaps between parentheses. -/
  isValue : Bool := false
  /-- Whether it is a call, perhaps between parentheses. -/
  isCall : Bool := false
  /-- Whether it stands between parentheses. -/
  isEnclosed : Bool := false
  /-- Whether it is a unary operator applied to something. -/
  isUnary : Bool := false
  /-- Whether it chooses between two operands by the truth of the first. -/
  isLogical : Bool := false
  /-- Whether it is an access that may find nothing, or continues one. -/
  isOptional : Bool := false
  /-- Whether it is a name, or a part of something that is named. -/
  isPath : Bool := false
  /-- Whether it is a template without substitutions. -/
  isPlainTemplate : Bool := false
  /-- The text before the generic arguments that end it, and these. -/
  instantiated : Option (String × List TypeForm) := none
  deriving Inhabited

/-- The rules of the grammar that refer to each other. -/
structure Rules where
  /-- A type. -/
  type : Parser TypeForm
  /-- A type without a condition. -/
  plainType : Parser TypeForm
  /-- An expression without a comma. -/
  assignment : Parser Expression
  /-- An operand of a binary operator. -/
  unary : Parser Expression
  /-- What can be called, or assigned to. -/
  leftHand : Parser Expression
  /-- What can be called, without calls. -/
  callee : Parser Expression
  /-- What a class or interface inherits from, beside its parent class. -/
  inherited : Parser Expression
  /-- A decorator after its mark. -/
  decorator : Parser Unit
  /-- A name or pattern that variables are declared with; the name is given back. -/
  pattern : Parser (Option Word)
  /-- An element with tags. -/
  element : Parser Unit
  /-- A statement; the argument says whether it may be a declaration. -/
  statement : Bool → Parser (List Item)
  /-- A statement or declaration of a file or namespace. -/
  moduleItem : Parser (List Item)

/-- The rules that accept nothing. -/
def Rules.empty : Rules where
  type := Parser.fail
  plainType := Parser.fail
  assignment := Parser.fail
  unary := Parser.fail
  leftHand := Parser.fail
  callee := Parser.fail
  inherited := Parser.fail
  decorator := Parser.fail
  pattern := Parser.fail
  element := Parser.fail
  statement := fun _ => Parser.fail
  moduleItem := Parser.fail

namespace Expression

/-- Whether an expression can be read as a part of a pattern. -/
def isPart (e : Expression) : Bool :=
  e.target || e.defaulted

/-- Whether an expression can be counted up or down. Values and calls are let pass. -/
def isCountable (e : Expression) : Bool :=
  e.place || e.isValue || e.isCall

/-- Whether an expression can be assigned to as a whole. A value between parentheses is let pass. -/
def isAssignable (e : Expression) : Bool :=
  e.target || (e.isEnclosed && e.isValue)

end Expression

namespace Rules

open DocBlock.Source.Parser

/-- What is allowed inside brackets: the constructs around them no longer end an expression. -/
def bracketed (context : Context) : Context :=
  { context with noIn := false, beforeColon := false }

/-- Reads an expression, perhaps with commas. -/
def expression (r : Rules) : Parser Expression := do
  let first ← r.assignment
  if ← eatMark "," then
    let others ← commaSeparated r.assignment
    return { start := first.start, stop := (others.getLastD first).stop }
  else return first

/-- Reads an initial value after its equals sign. -/
def initializer (r : Rules) : Parser Initializer := do
  let e ← r.assignment
  return { text := textBetween e.start e.stop, literal := e.literal }

/-- Reads a type after a colon, if there is one. -/
def annotation? (r : Rules) : Parser (Option TypeForm) := do
  if ← eatMark ":" then return some (← r.type) else return none

end Rules

end DocBlock.Source
