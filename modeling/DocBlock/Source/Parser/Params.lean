import DocBlock.Source.Parser.Rules

/-! # Patterns and parameters

Names and patterns that variables are declared with, parameters of functions with their types and
default values, and decorators. -/

namespace DocBlock.Source.Grammar

open DocBlock.Source.Parser

/-! ## Modifiers -/

/-- The words that say from where a member may be used. -/
def accessWord? (token : Token) : Option Access :=
  if token.isWord "public" then some .everywhere
  else if token.isWord "private" then some .ownClass
  else if token.isWord "protected" then some .subclasses
  else none

/-- Whether a word before a token can be a modifier of what the token starts. A line may end between
the two unless the token is an opening bracket. -/
def followsModifier (token : Token) : Bool :=
  token.isAnyWord || token.kind == .string || token.kind == .number || token.kind == .bigint ||
    token.kind == .privateName || ["\x7b", "*", "..."].any token.isMark ||
    (token.isMark "[" && !token.lineBreak)

/-- Reads one of some words if it is a modifier here. -/
def modifier (names : List String) : Parser (Option String) := do
  match names.find? (← current).isWord with
  | some name =>
    if followsModifier (← peek) then
      advance
      return some name
    else return none
  | none => return none

/-- Reads a modifier where none belongs, and says whether there was one. -/
def strayModifier : Parser Bool := do
  let token ← current
  let next ← peek
  let names := ["public", "protected", "private", "readonly"]
  if names.any token.isWord && (next.isAnyWord || next.isMark "\x7b" || next.isMark "[") then
    discard (modifier names)
    return true
  else return false

/-! ## Patterns -/

/-- Reads the default value of a part of a pattern, if there is one, and says whether there is. -/
def patternDefault (r : Rules) : Parser Bool := do
  if ← eatMark "=" then
    discard (within Rules.bracketed r.assignment)
    return true
  else return false

/-- Reads a part of a pattern with its default value. Nothing that exists elsewhere has one. -/
def patternElement (r : Rules) : Parser Unit := do
  discard r.pattern
  let defaulted ← patternDefault r
  check !(defaulted && (← context).ambient)

/-- Reads the mark of a pattern that may be left out; it stands there only when the pattern belongs
to something that exists elsewhere. -/
def patternMark : Parser Unit := do
  if (← context).ambient then discard (eatMark "?")

/-- Reads an array pattern after its opening bracket. -/
def arrayPattern (r : Rules) : Parser Unit := do
  discard <| chain false fun ended => do
    if ← isMark "]" then return none
    if ← eatMark "," then return some ended
    -- Nothing follows the element that takes the rest; two commas are let pass.
    check !ended
    let rest ← eatMark "..."
    if rest then discard r.pattern else patternElement r
    if !(← isMark "]") then
      expectMark ","
      check !(rest && (← isMark "]"))
    return some (ended || rest)
  expectMark "]"
  patternMark

/-- Reads a key between square brackets, which has no comma. -/
def computedKey (r : Rules) : Parser Unit := do
  expectMark "["
  let keys ← within Rules.bracketed (commaSeparated r.assignment)
  check (keys.length == 1)
  expectMark "]"

/-- Whether a word that is the key of a property may stand for a variable of that name too. -/
def isShorthand (name : String) : Bool :=
  isFreeName name || name == "this"

/-- Reads one property of an object pattern. -/
def patternProperty (r : Rules) : Parser Unit := do
  match (← current).kind with
  | .word name _ =>
    advance
    if ← eatMark ":" then patternElement r
    else
      let defaulted ← patternDefault r
      check (defaulted || isShorthand name.text)
  | .string => advance; expectMark ":"; patternElement r
  | .number => advance; expectMark ":"; patternElement r
  | .bigint => advance; expectMark ":"; patternElement r
  | _ =>
    computedKey r
    expectMark ":"
    patternElement r

/-- Reads an object pattern after its opening brace. -/
def objectPattern (r : Rules) : Parser Unit := do
  discard <| repeating do
    if ← isMark "\x7d" then return none
    if ← eatMark "..." then
      let name ← r.pattern
      -- Nothing follows the element that takes the rest.
      check (← isMark "\x7d")
      require (name.isSome || !(← isMark "\x7d"))
    else patternProperty r
    if !(← isMark "\x7d") then expectMark ","
    return some ()
  expectMark "\x7d"
  patternMark

/-- Reads a name or pattern. -/
def pattern (r : Rules) : Parser (Option Word) := do
  if ← eatMark "[" then
    arrayPattern r
    return none
  else if ← eatMark "\x7b" then
    objectPattern r
    return none
  else
    return some (← bindingWord)

/-! ## Decorators -/

/-- Reads the arguments of a call. -/
def arguments (r : Rules) : Parser Unit := do
  expectMark "("
  within Rules.bracketed do
    discard <| commaList ")" do
      discard (eatMark "...")
      discard r.assignment

/-- Reads the decorators before a declaration, and says whether there were some. -/
def decorators (r : Rules) : Parser Bool := do
  let found ← repeating do
    if ← eatMark "@" then return some (← r.decorator) else return none
  return !found.isEmpty

/-- Reads the decorators before a class or a statement. A statement does not keep them, and what is
returned in those of a class is not returned by the function around it. -/
def outerDecorators (r : Rules) : Parser Unit :=
  discard (collecting (decorators r))

/-! ## Parameters -/

/-- A parameter that has been read, without its origin. -/
structure ReadParam where
  /-- All but the type. -/
  shape : ParamShape
  /-- The type. -/
  type : Option TypeForm
  /-- The first token after modifiers and decorators. -/
  first : Token
  /-- The place where the pattern and its type end. -/
  stop : List Char

/-- Whether a pattern that has just been read was marked as one that may be left out. -/
def endsInMark (start : List Char) : Parser Bool := do
  return Text.endsWith ['?'] (← textFrom start).toList

/-- Reads a parameter that takes all remaining arguments, after its dots. -/
def restParam (r : Rules) (first : Token) : Parser ReadParam := do
  let start := (← current).start
  let name ← r.pattern
  let optional := name.isNone && (← endsInMark start)
  let initializer ← if ← eatMark "=" then pure (some (← r.initializer)) else pure none
  let type ← r.annotation?
  let stop := (← get).last
  check (initializer.isNone && !(← eatMark "?"))
  return { shape := { name, optional, rest := true, initializer }, type, first, stop }

/-- Reads a parameter that takes one argument. In an ambient declaration it has no default value. -/
def plainParam (r : Rules) : Parser ReadParam := do
  check !(← strayModifier)
  let first ← current
  let name ← r.pattern
  let marked ← if name.isNone then endsInMark first.start else pure false
  let stop := (← get).last
  let optional := (← eatMark "?") || marked
  let type ← r.annotation?
  let typeStop := (← get).last
  let stop := if type.isSome then typeStop else stop
  if ← eatMark "=" then
    check (!optional && !(← context).ambient)
    let initializer ← within Rules.bracketed r.initializer
    return { shape := { name, optional, initializer := some initializer }, type, first, stop }
  else return { shape := { name, optional }, type, first, stop }

/-- Reads a parameter after its decorators. -/
def undecoratedParam (r : Rules) : Parser ReadParam := do
  let first ← current
  if ← eatMark "..." then restParam r first else plainParam r

/-- Reads one parameter of a function. -/
def param (r : Rules) : Parser ParamForm := do
  let first ← current
  discard (decorators r)
  let read ← undecoratedParam r
  return .mk (← originOf first first) read.shape read.type

/-- Reads one parameter of a signature. It has no default value, and its text is that of its pattern
and type. -/
def signatureParam (r : Rules) : Parser ParamForm := do
  discard (decorators r)
  let read ← undecoratedParam r
  require (read.shape.initializer.isNone || read.shape.rest)
  return .mk (originUpTo read.first read.stop) read.shape read.type

/-- Reads one parameter of a constructor, and says whether it declares a property. -/
def constructorParam (r : Rules) : Parser (ParamForm × Bool) := do
  let first ← current
  discard (decorators r)
  let access ← modifier ["public", "protected", "private"]
  let override ← modifier ["override"]
  let readonly ← modifier ["readonly"]
  let isProperty := access.isSome || override.isSome || readonly.isSome
  let read ← if isProperty then plainParam r else undecoratedParam r
  require (!isProperty || read.shape.name.isSome || read.shape.initializer.isSome)
  return (.mk (← originOf first first) read.shape read.type, isProperty)

/-- A parameter apart from its type. -/
def shapeOf : ParamForm → ParamShape
  | .mk _ shape _ => shape

/-- Reads parameters between parentheses. After one that takes all remaining arguments there is not
even a comma. -/
def paramsBetween {α : Type} (shape : α → ParamShape) (element : Parser α) : Parser (List α) := do
  expectMark "("
  within Rules.bracketed <| commaList ")" do
    let a ← element
    check (!(shape a).rest || (← isMark ")"))
    return a

/-- Reads parameters between parentheses. -/
def paramList (element : Parser ParamForm) : Parser (List ParamForm) :=
  paramsBetween shapeOf element

end DocBlock.Source.Grammar
