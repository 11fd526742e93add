import DocBlock.Source.Parser.Modules

/-! # Reading a file

`ModuleForm.ofChars` reads a whole file. The name of the file decides about its language: elements
with tags stand in some files, and others only describe what exists elsewhere. -/

namespace DocBlock.Source

/-- The language of a file. -/
structure Dialect where
  /-- Whether elements with tags are expressions. -/
  elements : Bool := false
  /-- Whether the file only describes what exists elsewhere. -/
  declarationFile : Bool := false
  deriving DecidableEq, Inhabited, Repr

/-- The language that the name of a file stands for. -/
def Dialect.ofFileName (name : String) : Dialect where
  elements := Text.endsWith ".tsx".toList name.toList
  declarationFile := Text.endsWith ".d.ts".toList name.toList

/-! ## Module directives -/

/-- A text without white space before it, of which there is at least one character. -/
def dropBlanks? (cs : List Char) : Option (List Char) :=
  match cs with
  | c :: rest => if Text.isBlank c then some (Text.trimStart rest) else none
  | [] => none

/-- The module name in a quoted text after its opening quote. -/
def quotedModuleName? (cs : List Char) : Option String :=
  let isQuote (c : Char) := c == '"' || c == '\''
  let name := cs.takeWhile fun c => !isQuote c
  if name.isEmpty || (cs.dropWhile fun c => !isQuote c).isEmpty then none
  else some (String.ofList name)

/-- The name that a line comment gives to the module, as in `/// <amd-module name="app"/>`. -/
def directiveName? (comment : String) : Option String := do
  let rest ← Text.after? ['/'] (Text.trimStart comment.toList)
  let rest ← Text.after? "<amd-module".toList (Text.trimStart rest)
  let rest ← dropBlanks? rest
  let rest ← Text.after? "name".toList rest
  let rest ← Text.after? ['='] (Text.trimStart rest)
  match Text.trimStart rest with
  | '"' :: rest => quotedModuleName? rest
  | '\'' :: rest => quotedModuleName? rest
  | _ => none

/-! ## Files -/

/-- How deep the constructs of a text of the given length can be nested in terms of rules. -/
def nestingBound (length : Nat) : Nat :=
  8 * length + 64

/-- The state before the first token. A line that names an interpreter counts as a token. -/
def State.initial (dialect : Dialect) (cs : List Char) : State :=
  let text := skipByteOrderMark cs
  let line := interpreterLine? text
  let cs := line.getD text
  let (token, lineComments) := Token.read false line.isNone cs
  { token, last := cs, lineComments,
    context := {
      elements := dialect.elements
      declarationFile := dialect.declarationFile
      ambient := dialect.declarationFile } }

/-- The written form of a file, or the place where the text is not well formed. -/
def ModuleForm.ofChars (dialect : Dialect) (cs : List Char) : Except SyntaxFault ModuleForm := do
  let (items, s) ←
    (Grammar.moduleItems (Grammar.rules (nestingBound cs.length))).run (State.initial dialect cs)
  return { items, moduleName := s.lineComments.reverse.findSome? directiveName? }

/-- The line and the column of a place in a text, both counted from one. -/
def lineAndColumn (cs rest : List Char) : Nat × Nat :=
  let before := cs.take (cs.length - rest.length)
  (before.count '\n' + 1, (before.reverse.takeWhile (· != '\n')).length + 1)

end DocBlock.Source
