import DocBlock.Source.Form
import DocBlock.Source.Lexer

/-! # Parsers

A parser works on the current token and may go on to the next one. It fails at a place of the text;
to try something, it is run and forgotten when it fails. A fault that leaves no doubt about what is
meant is a failure too, but while something is only tried such faults are passed over. The
constructs that a parser meets are collected beside its result, so that expressions need no tree of
their own. -/

namespace DocBlock.Source

/-- What the constructs around a place allow there. -/
structure Context where
  /-- Whether faults that leave no doubt about what is meant are passed over. -/
  forgiving : Bool := false
  /-- Whether `await` waits here because the function around is asynchronous. -/
  isAsync : Bool := false
  /-- Whether `yield` yields here. -/
  isGenerator : Bool := false
  /-- Whether a function is around. -/
  inFunction : Bool := false
  /-- Whether a function other than an arrow function is around. -/
  inProperFunction : Bool := false
  /-- Whether the parameters of a function are around. -/
  inParams : Bool := false
  /-- Whether a class is around. -/
  inClass : Bool := false
  /-- Whether the initial value of a class property is around. -/
  inField : Bool := false
  /-- Whether a loop is around. -/
  inLoop : Bool := false
  /-- Whether a statement that can be left is around. -/
  canBreak : Bool := false
  /-- The labels of the statements around. -/
  labels : List String := []
  /-- Whether `in` ends an expression. -/
  noIn : Bool := false
  /-- Whether a branch of a conditional expression is around. -/
  inConditional : Bool := false
  /-- Whether the colon of a conditional expression is still to come. -/
  beforeColon : Bool := false
  /-- Whether `extends` ends a type. -/
  noConditionalType : Bool := false
  /-- Whether declarations describe what exists elsewhere. -/
  ambient : Bool := false
  /-- Whether the class around extends another one. -/
  hasParent : Bool := false
  /-- Whether the file only describes what exists elsewhere. -/
  declarationFile : Bool := false
  /-- Whether elements with tags are expressions. -/
  elements : Bool := false
  deriving Inhabited, Repr

/-- The state of a parser. -/
structure State where
  /-- The current token. -/
  token : Token
  /-- The text after the token before the current one. -/
  last : List Char
  /-- What is allowed at the current place. -/
  context : Context := {}
  /-- The constructs that were met inside the current one, the last one first. -/
  code : List Code := []
  /-- The texts of the line comments up to the current token, the last one first. -/
  lineComments : List String := []
  deriving Inhabited, Repr

/-- A place where the text is not well formed: what is left to read from there. -/
structure SyntaxFault where
  rest : List Char
  deriving Inhabited, Repr

/-- A parser. -/
abbrev Parser := StateT State (Except SyntaxFault)

namespace Parser

/-! ## Tokens -/

/-- The current token. -/
def current : Parser Token := do
  return (← get).token

/-- What is allowed at the current place. -/
def context : Parser Context := do
  return (← get).context

/-- Fails at the current token. -/
def fail {α : Type} : Parser α := fun s =>
  .error ⟨s.token.start⟩

/-- Fails unless a condition holds. -/
def require (condition : Bool) : Parser Unit :=
  if condition then pure () else fail

/-- Fails unless a condition holds or faults are passed over. -/
def check (condition : Bool) : Parser Unit := do
  require (condition || (← context).forgiving)

/-- Puts another token in place of the current one. -/
def replaceToken (token : Token) : Parser Unit :=
  modify fun s => { s with token }

/-- Goes on to the token that starts after `rest` has been reached; `keeps` says whether a comment
there belongs to what was read before. -/
def continueAt (keeps : Bool) (rest : List Char) : Parser Unit :=
  modify fun s =>
    let (token, comments) := Token.read keeps false rest
    { s with token, last := rest, lineComments := comments ++ s.lineComments }

/-- Goes on to the next token. -/
def advance : Parser Unit := do
  let token ← current
  continueAt token.kind.keepsComment token.after

/-- The token after the current one. -/
def peek : Parser Token := do
  let token ← current
  return (Token.read token.kind.keepsComment false token.after).1

/-- Whether the current token is the given punctuator. -/
def isMark (text : String) : Parser Bool := do
  return (← current).isMark text

/-- Whether the current token stands for the given keyword. -/
def isWord (keyword : String) : Parser Bool := do
  return (← current).isWord keyword

/-- Goes on if the current token is the given punctuator. -/
def eatMark (text : String) : Parser Bool := do
  if ← isMark text then advance; return true else return false

/-- Goes on if the current token stands for the given keyword. -/
def eatWord (keyword : String) : Parser Bool := do
  if ← isWord keyword then advance; return true else return false

/-- Goes on if the current token is the given punctuator, and fails otherwise. -/
def expectMark (text : String) : Parser Unit := do
  require (← isMark text)
  advance

/-- Goes on if the current token stands for the given keyword, and fails otherwise. -/
def expectWord (keyword : String) : Parser Unit := do
  require (← isWord keyword)
  advance

/-- Whether the current token starts with an opening angle bracket. -/
def atAngle : Parser Bool := do
  let token ← current
  return token.isMark "<" || token.isMark "<<"

/-- Goes on after an opening angle bracket; two of them at once are taken apart. -/
def expectAngle : Parser Unit := do
  require (← atAngle)
  replaceToken (← current).firstChar
  advance

/-- Whether a line ends before the current token. -/
def atNewLine : Parser Bool := do
  return (← current).lineBreak

/-- Whether the current token ends a statement without a semicolon. -/
def atStatementEnd : Parser Bool := do
  let token ← current
  return token.lineBreak || token.isMark "\x7d" || token.kind == .ending

/-- Goes on after the end of a statement, if it ends here. At the end of a line it needs no
semicolon. -/
def eatSemicolon : Parser Bool := do
  if ← eatMark ";" then return true else atStatementEnd

/-- Goes on after the end of a statement, and fails if it does not end here. -/
def semicolon : Parser Unit := do
  require (← eatSemicolon)

/-! ## Places -/

/-- The text from a place up to the end of the last token. -/
def textFrom (start : List Char) : Parser String := do
  return textBetween start (← get).last

/-- The first line of a text, without the white space around it and cut at 80 characters. -/
def excerptOf (text : String) : String :=
  String.ofList ((Text.trim ((Text.lines text.toList).headD [])).take 80)

/-- The origin of a declaration whose text starts with one token and whose documentation stands
before another. -/
def originOf (first documented : Token) : Parser Origin := do
  return { excerpt := excerptOf (← textFrom first.start), doc := documented.doc }

/-- The origin of a declaration whose text is that from a token up to a place. -/
def originUpTo (first : Token) (stop : List Char) : Origin :=
  { excerpt := excerptOf (textBetween first.start stop), doc := first.doc }

/-! ## Control -/

/-- Runs a parser, and goes back when it fails. -/
def attempt {α : Type} (p : Parser α) : Parser (Option α) := fun s =>
  match p s with
  | .ok (a, s') => .ok (some a, s')
  | .error _ => .ok (none, s)

/-- Runs a parser where other things are allowed. -/
def within {α : Type} (change : Context → Context) (p : Parser α) : Parser α := do
  let outer ← context
  modify fun s => { s with context := change outer }
  let a ← p
  modify fun s => { s with context := outer }
  return a

/-- Runs a parser where faults are passed over, and goes back when it fails all the same. -/
def speculate {α : Type} (p : Parser α) : Parser (Option α) :=
  attempt (within (fun c => { c with forgiving := true }) p)

/-- Whether a parser would succeed; nothing is read. -/
def looksLike {α : Type} (p : Parser α) : Parser Bool := fun s =>
  match p { s with context := { s.context with forgiving := true } } with
  | .ok _ => .ok (true, s)
  | .error _ => .ok (false, s)

/-- Runs a parser and collects the constructs that it meets. -/
def collecting {α : Type} (p : Parser α) : Parser (α × List Code) := do
  let outer := (← get).code
  modify fun s => { s with code := [] }
  let a ← p
  let inner := (← get).code
  modify fun s => { s with code := outer }
  return (a, inner.reverse)

/-- Notes a construct. -/
def note (code : Code) : Parser Unit :=
  modify fun s => { s with code := code :: s.code }

/-- Runs a parser that reads a construct. -/
def enclosed {α : Type} (construct : Construct) (p : Parser α) : Parser α := do
  let (a, parts) ← collecting p
  note (.node construct parts)
  return a

/-- Runs a parser and tells which constructs it has met. -/
def recording {α : Type} (p : Parser α) : Parser (α × List Code) := do
  let (a, code) ← collecting p
  modify fun s => { s with code := code.reverse ++ s.code }
  return (a, code)

/-- The result of the first of some parsers that gives one. -/
def firstOf {α : Type} : List (Parser (Option α)) → Parser (Option α)
  | [] => return none
  | p :: others => do
    match ← p with
    | some a => return some a
    | none => firstOf others

/-- Repeats a step as long as it gives a result. The last argument bounds the number of steps. -/
def repeatN {α : Type} (step : Parser (Option α)) : Nat → Parser (List α)
  | 0 => fail
  | n + 1 => do
    match ← step with
    | some a => return a :: (← repeatN step n)
    | none => return []

/-- Passes a result on from step to step as long as there is one. The last argument bounds the
number of steps. -/
def chainN {α : Type} (step : α → Parser (Option α)) (a : α) : Nat → Parser α
  | 0 => fail
  | n + 1 => do
    match ← step a with
    | some a => chainN step a n
    | none => return a

/-- How many steps a loop can take at most, since each of them reads something. -/
def bound : Parser Nat := do
  return (← current).start.length + 1

/-- Repeats a step as long as it gives a result. -/
def repeating {α : Type} (step : Parser (Option α)) : Parser (List α) := do
  repeatN step (← bound)

/-- Passes a result on from step to step as long as there is one. -/
def chain {α : Type} (a : α) (step : α → Parser (Option α)) : Parser α := do
  chainN step a (← bound)

/-- Reads elements with commas between them up to a closing punctuator; a comma may stand before
that one too. -/
def commaList {α : Type} (close : String) (element : Parser α) : Parser (List α) := do
  let elements ← repeating do
    if ← isMark close then return none
    let a ← element
    if !(← isMark close) then expectMark ","
    return some a
  expectMark close
  return elements

/-- Reads one or more elements with a comma between each two. -/
def commaSeparated {α : Type} (element : Parser α) : Parser (List α) := do
  let first ← element
  let others ← repeating do
    if ← eatMark "," then return some (← element) else return none
  return first :: others

/-! ## Names -/

/-- Reads any word. -/
def spelledWord : Parser Word := do
  match (← current).kind with
  | .word name _ => advance; return name
  | _ => fail

/-- Reads any word and gives its spelling. -/
def word : Parser String := do
  return (← spelledWord).text

/-- Reads a name that may be used as a variable. -/
def freeName : Parser String := do
  require (← current).isFreeName
  word

/-- The words that are taken for names where they must not be. -/
def misusedWords : List String :=
  ["enum", "implements", "interface", "let", "package", "private", "protected", "public", "static",
   "yield"]

/-- Reads a name of something; `this` is one, and `await` names something that exists elsewhere. -/
def properWord : Parser Word := do
  match (← current).kind with
  | .word _ (some keyword) =>
    check !misusedWords.contains keyword
    require (isFreeName keyword || keyword == "this" || misusedWords.contains keyword ||
      (keyword == "await" && (← context).ambient))
    spelledWord
  | _ => spelledWord

/-- Reads the name of something and gives its spelling. -/
def properName : Parser String := do
  return (← properWord).text

/-- Reads a name that a variable may be declared with. -/
def bindingWord : Parser Word := do
  let name ← properWord
  check (name.text != "eval" && name.text != "arguments")
  return name

/-- Reads a name that a variable may be declared with and gives its spelling. -/
def bindingName : Parser String := do
  return (← bindingWord).text

end Parser

end DocBlock.Source
