import DocBlock.Source.Parser.Expressions

/-! # Statements and declarations

Statements are read for the constructs in them; declarations give items. The declarations that are
written inside functions are read in the same way and left out by the rules that call for
statements only. -/

namespace DocBlock.Source.Grammar

open DocBlock.Source.Parser

/-! ## Variables -/

/-- Which word declares variables. -/
inductive VariableWord where
  /-- Variables of the whole function around. -/
  | hoisted
  | changeable
  | constant
  /-- Variables whose values are disposed of at the end. -/
  | resource
  deriving DecidableEq

/-- Whether a token after `let` shows that variables are declared. -/
def followsLet (token : Token) : Bool :=
  match token.kind with
  | .word _ (some keyword) => !reservedWords.contains keyword
  | .word _ none => true
  | _ => token.isMark "\x7b" || token.isMark "["

/-- Which word declares variables here, if one does. -/
def variableWord? : Parser (Option VariableWord) := do
  let token ← current
  if token.isWord "var" then return some .hoisted
  else if token.isWord "const" then return some .constant
  else if token.isWord "let" && followsLet (← peek) then return some .changeable
  else return none

/-- Whether a loop over elements or keys goes on here. -/
def atLoopSource : Parser Bool := do
  return (← isWord "of") || (← isWord "in")

/-- What has been read of one variable of a declaration. -/
structure Declarator where
  /-- The variable, when it has a name. -/
  item : Option Item
  /-- Whether it has an initial value. -/
  isInitialized : Bool
  /-- Whether it has a type. -/
  isTyped : Bool

/-- Checks that a variable may stand without an initial value. A pattern needs one, and so does a
constant outside of the head of a loop. -/
def checkUninitialized (kind : VariableWord) (inHead named : Bool) : Parser Unit := do
  let loops := inHead && (← atLoopSource)
  if !loops && !(← context).ambient then
    if kind == .constant && !inHead then check false else require named

/-- Reads one variable of a declaration; `inHead` says whether it stands in the head of a loop. -/
def declarator (r : Rules) (kind : VariableWord) (inHead : Bool) (documented : Option Token) :
    Parser Declarator := do
  let first ← current
  let name ← r.pattern
  if name.isSome then discard (eatMark "!")
  let type ← r.annotation?
  let initializer ← if ← eatMark "=" then pure (some (← r.initializer)) else pure none
  if initializer.isNone then checkUninitialized kind inHead name.isSome
  let origin ← originOf first (documented.getD first)
  return {
    item := name.map fun name => .variable origin name.text initializer type
    isInitialized := initializer.isSome
    isTyped := type.isSome }

/-- Reads the variables of a declaration after the word that declares them. The documentation of
the first one stands before the given token. -/
def declarators (r : Rules) (kind : VariableWord) (inHead : Bool) (documented : Token) :
    Parser (List Declarator) := do
  let first ← declarator r kind inHead (some documented)
  let others ← repeating do
    if ← eatMark "," then return some (← declarator r kind inHead none) else return none
  return first :: others

/-- Reads a declaration of variables from the word that declares them on. -/
def variableDeclaration (r : Rules) (kind : VariableWord) (documented : Token) :
    Parser (List Item) := do
  advance
  let declared ← declarators r kind false documented
  semicolon
  return declared.filterMap (·.item)

/-- Reads a declaration of variables whose values are disposed of. They have names and initial values,
and are not documented. -/
def resourceDeclaration (r : Rules) (documented : Token) : Parser Unit := do
  expectWord "using"
  let declared ← declarators r .resource false documented
  check (declared.all fun declared => declared.item.isSome && declared.isInitialized)
  semicolon

/-- Whether a declaration of variables whose values are disposed of starts here. -/
def atResource : Parser Bool := do
  let next ← peek
  return (← isWord "using") && !next.lineBreak && next.isFreeName

/-! ## Declarations of types -/

/-- The names that no interface may have. -/
def takenInterfaceNames : List String :=
  "null" :: "intrinsic" :: takenTypeNames

/-- Reads an interface from the word that opens it on. -/
def interfaceDeclaration (r : Rules) (first documented : Token) : Parser (List Item) := do
  expectWord "interface"
  let name ← word
  check !takenInterfaceNames.contains name
  let typeParams ← typeParams r typeVariance
  let parents ← if ← eatWord "extends" then heritageList r else pure []
  expectMark "\x7b"
  let members ← typeMembers r
  return [.interface (← originOf first documented) name typeParams parents members]

/-- Reads a type alias. -/
def aliasDeclaration (r : Rules) (first documented : Token) : Parser (List Item) := do
  expectWord "type"
  let name ← word
  let typeParams ← typeParams r typeVariance
  expectMark "="
  let type ← r.type
  semicolon
  return [.typeAlias (← originOf first documented) name typeParams type]

/-- Reads the name of a member of an enumeration, as written. Between brackets it is a text. -/
def enumMemberName (r : Rules) : Parser String := do
  let token ← current
  match token.kind with
  | .word _ _ => advance; textFrom token.start
  | .string => advance; textFrom token.start
  | .number =>
    check false
    advance
    textFrom token.start
  | _ =>
    expectMark "["
    let e ← within Rules.bracketed r.expression
    expectMark "]"
    check (e.literal == some .string || e.isPlainTemplate)
    return textBetween e.start e.stop

/-- Whether a member of an enumeration ends here. -/
def atEnumMemberEnd : Parser Bool := do
  return (← isMark ",") || (← isMark "\x7d")

/-- Reads one member of an enumeration. Where a value is missing one token is passed over. -/
def enumMember (r : Rules) : Parser EnumMember := do
  let name := unquote (← enumMemberName r)
  if ← eatMark "=" then return { name, initializer := some (← r.initializer) }
  else
    if !(← atEnumMemberEnd) then
      check false
      advance
    return { name }

/-- Reads the members of an enumeration between braces. -/
def enumMembers (r : Rules) : Parser (List EnumMember) := do
  expectMark "\x7b"
  let members ← repeating do
    if ← isMark "\x7d" then return none
    let member ← enumMember r
    check (← atEnumMemberEnd)
    discard (eatMark ",")
    return some member
  expectMark "\x7d"
  return members

/-- Reads an enumeration after the word that may stand before it. -/
def enumDeclaration (r : Rules) (first documented : Token) : Parser (List Item) := do
  expectWord "enum"
  let name ← word
  let members ← within Rules.bracketed (enumMembers r)
  return [.enum (← originOf first documented) name members]

/-! ## Namespaces -/

/-- Reads the items of a namespace between braces. -/
def namespaceItems (r : Rules) : Parser (List Item) := do
  expectMark "\x7b"
  let items ← repeating do
    if ← isMark "\x7d" then return none
    return some (← r.moduleItem)
  expectMark "\x7d"
  return items.flatten

/-- Reads what follows a name of a namespace: its items, or a dot and a namespace inside it. The last
argument bounds the number of names. -/
def namespaceTail (r : Rules) : Nat → Parser (List Item)
  | 0 => fail
  | n + 1 => do
    if ← eatMark "." then
      let first ← current
      let name ← word
      let items ← namespaceTail r n
      return [.namespaceDecl (← originOf first first) name false items]
    else namespaceItems r

/-- Reads a namespace from its name on, which is kept as it is written. -/
def namespaceDeclaration (r : Rules) (first documented : Token) : Parser (List Item) := do
  let token ← current
  discard word
  let name ← textFrom token.start
  let items ← namespaceTail r (← bound)
  return [.namespaceDecl (← originOf first documented) name false items]

/-- Reads the items of something that is declared elsewhere; they may be left out. -/
def ambientItems (r : Rules) : Parser (List Item) := do
  if ← isMark "\x7b" then namespaceItems r
  else
    semicolon
    return []

/-- Reads a module from its name on. A quoted name is that of a module elsewhere, whose items may be
left out. -/
def moduleDeclaration (r : Rules) (first documented : Token) : Parser (List Item) := do
  let token ← current
  if token.kind == .string then
    advance
    let name := unquote (← textFrom token.start)
    let items ← ambientItems r
    return [.namespaceDecl (← originOf first documented) name true items]
  else namespaceDeclaration r first documented

/-! ## Functions and classes -/

/-- Reads a function declaration after the words that open it. A name may be missing where there is
a name for such functions. -/
def functionDeclaration (r : Rules) (isAsync : Bool) (unnamed : Option String)
    (first documented : Token) : Parser (List Item) :=
  enclosed .function do
    let isGenerator ← eatMark "*"
    let name ← match unnamed with
      | some unnamed => if (← current).isAnyWord then bindingName else pure unnamed
      | none => bindingName
    let function ← functionTail r isAsync isGenerator
    return [.function (← originOf first documented) name function]

/-- Reads a class declaration from the word `class` on. A name may be missing where there is a name
for such classes. -/
def classDeclaration (r : Rules) (isAbstract : Bool) (unnamed : Option String)
    (first documented : Token) : Parser (List Item) := do
  expectWord "class"
  let isNamed := (← current).isAnyWord && !(← isWord "extends") && !(← isWord "implements")
  let name ← match unnamed with
    | some unnamed => if isNamed then className else pure unnamed
    | none => className
  let decl ← classTail r isAbstract
  return [.classDecl (← originOf first documented) name decl]

/-! ## Declarations after `declare` and `export` -/

/-- Reads a declaration that the word at the current place announces, if it is one of the language of
types. Lines may end between its words. -/
def typeDeclaration? (r : Rules) (first documented : Token) : Parser (Option (List Item)) := do
  let token ← current
  if token.isWord "abstract" then
    advance
    return some (← classDeclaration r true none first documented)
  else if token.isWord "enum" then return some (← enumDeclaration r first documented)
  else if token.isWord "interface" then return some (← interfaceDeclaration r first documented)
  else if token.isWord "type" then return some (← aliasDeclaration r first documented)
  else if token.isWord "namespace" then
    advance
    return some (← namespaceDeclaration r first documented)
  else if token.isWord "module" && !token.lineBreak then
    advance
    return some (← moduleDeclaration r first documented)
  else return none

/-- Reads an enumeration whose members are constants, if there is one. -/
def constantEnum? (r : Rules) (first documented : Token) : Parser (Option (List Item)) := do
  if (← isWord "const") && (← peek).isWord "enum" then
    advance
    return some (← enumDeclaration r first documented)
  else return none

/-- Reads a declaration of variables, if there is one. -/
def variables? (r : Rules) (documented : Token) : Parser (Option (List Item)) := do
  match ← variableWord? with
  | some kind => return some (← variableDeclaration r kind documented)
  | none => return none

/-- Reads additions to the global names, if there are some. They are not documented. -/
def globalItems? (r : Rules) : Parser (Option (List Item)) := do
  if ← eatWord "global" then
    discard (ambientItems r)
    return some []
  else return none

/-- Reads a function or class that is not abstract, if there is one. -/
def functionOrClass? (r : Rules) (first documented : Token) : Parser (Option (List Item)) := do
  if ← eatWord "function" then return some (← functionDeclaration r false none first documented)
  else if ← isWord "class" then return some (← classDeclaration r false none first documented)
  else return none

/-- Reads a declaration that only describes what exists elsewhere, after its first word, if there is
one. -/
def ambientDeclaration? (r : Rules) (first documented : Token) : Parser (Option (List Item)) := do
  let outer ← context
  check (!outer.ambient || outer.declarationFile)
  within (fun c => { c with ambient := true }) <| firstOf
    [functionOrClass? r first documented, constantEnum? r first documented, variables? r documented,
     globalItems? r, typeDeclaration? r first documented]

/-! ## Loops -/

/-- Reads a condition between parentheses. -/
def condition (r : Rules) : Parser Unit := do
  expectMark "("
  discard (within Rules.bracketed r.expression)
  expectMark ")"

/-- Reads the body of a loop. -/
def loopBody (r : Rules) : Parser Unit :=
  within (fun c => { c with inLoop := true, canBreak := true }) (discard (r.statement false))

/-- Reads the rest of the head of a loop with three parts. -/
def loopParts (r : Rules) : Parser Unit := do
  expectMark ";"
  if !(← isMark ";") then discard r.expression
  expectMark ";"
  if !(← isMark ")") then discard r.expression

/-- Reads what a loop runs over; one that waits does not run over keys. -/
def loopSource (r : Rules) (waits : Bool) : Parser Unit := do
  if ← eatWord "of" then discard r.assignment
  else
    require !waits
    expectWord "in"
    discard r.expression

/-- Reads the head of a loop that declares variables. A loop over something declares one, which has
neither a type nor an initial value. -/
def declaringHead (r : Rules) (waits : Bool) (kind : VariableWord) : Parser Unit := do
  let first ← current
  advance
  let declared ← within (fun c => { c with noIn := kind == .hoisted }) (declarators r kind true first)
  if ← atLoopSource then
    check (declared.length == 1 && declared.all fun declared =>
      !declared.isInitialized && !declared.isTyped)
    loopSource r waits
  else
    require !waits
    loopParts r

/-- Whether a loop over something starts here that declares a variable whose values are disposed of,
perhaps by waiting. -/
def atResourceHead : Parser Bool :=
  looksLike do
    discard (eatWord "await")
    expectWord "using"
    require !(← isWord "of")
    discard freeName
    require (← atLoopSource)

/-- Reads the head of a loop that assigns to what it runs with, or has no variables. -/
def assigningHead (r : Rules) (waits : Bool) : Parser Unit := do
  if ← isMark ";" then
    require !waits
    loopParts r
  else
    let e ← within (fun c => { c with noIn := true }) r.expression
    if ← atLoopSource then
      check (e.target || e.isValue)
      check (!(← isWord "in") || e.place || !e.target)
      loopSource r waits
    else
      require !waits
      loopParts r

/-- Reads the head of a `for` loop after its opening parenthesis; `waits` says whether the loop
waits for each element of something. -/
def loopHead (r : Rules) (waits : Bool) : Parser Unit := do
  match ← variableWord? with
  | some kind => declaringHead r waits kind
  | none =>
    if ← atResourceHead then
      discard (eatWord "await")
      expectWord "using"
      discard bindingName
      check !(← isWord "in")
      loopSource r waits
    else assigningHead r waits

/-- Reads a `for` loop. -/
def forStatement (r : Rules) : Parser Unit := do
  expectWord "for"
  let waits ← eatWord "await"
  expectMark "("
  within Rules.bracketed (loopHead r waits)
  expectMark ")"
  loopBody r

/-! ## Other statements -/

/-- Reads the statements of one clause of a `switch`. -/
def clauseStatements (r : Rules) : Parser Unit := do
  discard <| repeating do
    if (← isMark "\x7d") || (← isWord "case") || (← isWord "default") then return none
    return some (← r.statement true)

/-- Reads the clauses of a `switch` after the opening brace. At most one has no condition. -/
def switchClauses (r : Rules) : Parser Unit := do
  let defaults ← repeating do
    if ← isMark "\x7d" then return none
    let isDefault ← eatWord "default"
    if !isDefault then
      expectWord "case"
      discard r.expression
    expectMark ":"
    clauseStatements r
    return some isDefault
  require ((defaults.filter id).length ≤ 1)
  expectMark "\x7d"

/-- Reads a block. -/
def block (r : Rules) : Parser Unit := do
  expectMark "\x7b"
  within Rules.bracketed (blockStatements r)

/-- Reads a `try` statement. -/
def tryStatement (r : Rules) : Parser Unit := do
  expectWord "try"
  block r
  let caught ← eatWord "catch"
  if caught then
    if ← eatMark "(" then
      discard r.pattern
      discard r.annotation?
      expectMark ")"
    block r
  if ← eatWord "finally" then block r else check caught

/-- Reads a jump out of a loop, `switch` or labelled statement. -/
def jump (leaves : Bool) : Parser Unit := do
  let context ← context
  advance
  let label ←
    if ← eatSemicolon then pure none
    else
      let label ← freeName
      semicolon
      pure (some label)
  check (if leaves then context.canBreak else context.inLoop)
  check ((label.map context.labels.contains).getD true)

/-- Reads a `return`. -/
def returnStatement (r : Rules) : Parser Unit := do
  check (← context).inFunction
  advance
  if ← atStatementEnd <||> isMark ";" then
    note (.node .returnNothing [])
  else
    enclosed .returnValue (discard r.expression)
  semicolon

/-- Reads a statement that its first word announces, if it is one. -/
def wordStatement? (r : Rules) : Parser Bool := do
  let token ← current
  match token.kind with
  | .word _ (some "if") =>
    advance
    condition r
    discard (r.statement false)
    if ← eatWord "else" then discard (r.statement false)
    return true
  | .word _ (some "for") => forStatement r; return true
  | .word _ (some "while") => advance; condition r; loopBody r; return true
  | .word _ (some "do") =>
    advance
    loopBody r
    expectWord "while"
    condition r
    discard (eatMark ";")
    return true
  | .word _ (some "switch") =>
    advance
    condition r
    expectMark "\x7b"
    within (fun c => { Rules.bracketed c with canBreak := true }) (switchClauses r)
    return true
  | .word _ (some "try") => tryStatement r; return true
  | .word _ (some "throw") =>
    advance
    require !(← atNewLine)
    discard r.expression
    semicolon
    return true
  | .word _ (some "return") => returnStatement r; return true
  | .word _ (some "break") => jump true; return true
  | .word _ (some "continue") => jump false; return true
  | .word _ (some "debugger") => advance; semicolon; return true
  | .word _ (some "import") =>
    discard r.expression
    discard eatSemicolon
    return true
  | .word _ (some "with") => fail
  | _ => return false

/-- Reads a labelled statement after its colon. -/
def labelled (r : Rules) (label : String) : Parser Unit := do
  check !(← context).labels.contains label
  within (fun c => { c with labels := label :: c.labels, canBreak := true })
    (discard (r.statement false))

/-- Reads a declaration after the name that opens it, if there is one. Such a name is a word of the
language only here. -/
def declarationAfter? (r : Rules) (first : Token) (name : String) : Parser (Option (List Item)) := do
  let token ← current
  if name == "declare" then ambientDeclaration? r first first
  else if name == "global" && token.isMark "\x7b" then
    discard (namespaceItems r)
    return some []
  else if name == "abstract" && token.isWord "class" && !token.lineBreak then
    return some (← classDeclaration r true none first first)
  else if name == "module" && !token.lineBreak && (token.isFreeName || token.kind == .string) then
    return some (← moduleDeclaration r first first)
  else if name == "namespace" && token.isFreeName then
    return some (← namespaceDeclaration r first first)
  else return none

/-- Reads a statement that starts with an expression: a label, or a name that opens a declaration, may
be that expression. -/
def expressionStatement (r : Rules) : Parser (List Item) := do
  let first ← current
  let e ← r.expression
  match e.name with
  | some name =>
    if ← eatMark ":" then
      labelled r name
      return []
    match ← declarationAfter? r first name with
    | some items => return items
    | none => semicolon; return []
  | none => semicolon; return []

/-- Reads a declaration of a type that stands for itself, if there is one. Its name stands on the line
of its first word. -/
def namedTypeDeclaration? (r : Rules) : Parser (Option (List Item)) := do
  let first ← current
  let next ← peek
  if next.isAnyWord && !next.lineBreak then
    if first.isWord "interface" then return some (← interfaceDeclaration r first first)
    else if first.isWord "type" then return some (← aliasDeclaration r first first)
    else if first.isWord "enum" then return some (← enumDeclaration r first first)
    else return none
  else return none

/-- Reads a function that is asynchronous, if there is one. -/
def asyncFunction? (r : Rules) (documented : Token) : Parser (Option (List Item)) := do
  let first ← current
  let next ← peek
  if first.isWord "async" && next.isWord "function" && !next.lineBreak then
    advance
    advance
    return some (← functionDeclaration r true none first documented)
  else return none

/-- Reads variables whose values are disposed of, perhaps by waiting, if there are some. -/
def resources? (r : Rules) : Parser (Option (List Item)) := do
  let first ← current
  let found ←
    if first.isWord "await" then looksLike (do advance; require (← atResource))
    else atResource
  if found then
    discard (eatWord "await")
    resourceDeclaration r first
    return some []
  else return none

/-- Reads a declaration that is not announced by a name, if there is one; `allowed` says whether one may
stand here. Functions and classes are recognized where they must not stand, and those with decorators
start with these. -/
def declaration? (r : Rules) (allowed : Bool) (decorated : Token) : Parser (Option (List Item)) := do
  let first ← current
  if first.isWord "function" || first.isWord "class" then check allowed
  let classFirst := if first.isWord "class" then decorated else first
  let declared := if allowed || first.isWord "var" then variables? r first else pure none
  firstOf
    [constantEnum? r decorated decorated, functionOrClass? r classFirst classFirst, declared,
     if allowed then resources? r else pure none, namedTypeDeclaration? r, asyncFunction? r first]

/-- Reads a statement, or a declaration where one is allowed. Decorators may stand before any of
them. -/
def statement (r : Rules) (declarations : Bool) : Parser (List Item) :=
  enclosed .statement do
    let decorated ← current
    outerDecorators r
    if ← isMark "\x7b" then block r; return []
    else if ← eatMark ";" then return []
    else if ← wordStatement? r then return []
    else
      match ← declaration? r declarations decorated with
      | some items => return items
      | none => expressionStatement r

end DocBlock.Source.Grammar
