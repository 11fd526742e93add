import DocBlock.Source.Parser.Params

/-! # Types

Reading type annotations, type parameters, and the members of interfaces and object types. Types of
which only the text is kept are read for their extent. -/

namespace DocBlock.Source.Grammar

open DocBlock.Source.Parser

/-! ## Type parameters and arguments -/

/-- The words that type parameters may be marked with at some place. -/
structure Variance where
  /-- Whether a parameter may be marked as one whose argument is taken literally. -/
  literal : Bool := false
  /-- Whether a parameter may be marked as one that only goes in or out. -/
  directed : Bool := false

/-- How type parameters of functions may be marked. -/
def functionVariance : Variance :=
  { literal := true }

/-- How type parameters of interfaces and type aliases may be marked. -/
def typeVariance : Variance :=
  { directed := true }

/-- How type parameters of classes may be marked. -/
def classVariance : Variance :=
  { literal := true, directed := true }

/-- Whether the marks of a type parameter fit: each direction at most once, and `in` first. -/
def Variance.allows (variance : Variance) (marks : List String) : Bool :=
  let directions := marks.filter (· != "const")
  (variance.literal || directions.length == marks.length) &&
    (directions == [] ||
      (variance.directed && [["in"], ["out"], ["in", "out"]].contains directions))

/-- Reads one type parameter. -/
def typeParam (r : Rules) (variance : Variance) : Parser String := do
  let marks ← repeating (modifier
    ["public", "private", "protected", "readonly", "abstract", "const", "override", "in", "out"])
  check (variance.allows marks)
  let name ← word
  if ← eatWord "extends" then discard r.type
  if ← eatMark "=" then discard r.type
  return name

/-- Reads type parameters between angle brackets, if there are some. -/
def typeParams (r : Rules) (variance : Variance) : Parser (List String) := do
  if ← eatMark "<" then commaList ">" (typeParam r variance) else return []

/-- Reads generic arguments between angle brackets. -/
def typeArgs (r : Rules) : Parser (List TypeForm) := do
  expectAngle
  commaList ">" r.type

/-- Reads generic arguments on the same line, if there are some. -/
def typeArgs? (r : Rules) : Parser (List TypeForm) := do
  if (← atAngle) && !(← atNewLine) then typeArgs r else return []

/-! ## Results of functions -/

/-- Reads the type of a result, which may say what a parameter is known to be afterwards. -/
def resultType (r : Rules) : Parser TypeForm := do
  let start := (← current).start
  let asserts := (← isWord "asserts") && (← peek).isFreeName
  if asserts then advance
  let next ← peek
  if (← current).isFreeName && next.isWord "is" && !next.lineBreak then
    advance
    advance
    discard r.type
    return .other (← textFrom start)
  else if asserts then
    discard word
    return .other (← textFrom start)
  else r.type

/-- Reads the type of a result after a colon, if there is one. -/
def result? (r : Rules) : Parser (Option TypeForm) := do
  if ← eatMark ":" then return some (← resultType r) else return none

/-! ## Names -/

/-- Reads a name and the names after it that it qualifies, each by the given parser. -/
def entityName (part : Parser String) : Parser String := do
  let start := (← current).start
  check ((← word) != "void")
  discard <| repeating do
    if ← eatMark "." then return some (← part) else return none
  textFrom start

/-- A name without the quotes around it. -/
def unquote (text : String) : String :=
  let isQuote (c : Char) := c == '"' || c == '\'' || c == '`'
  String.ofList (((text.toList.dropWhile isQuote).reverse.dropWhile isQuote).reverse)

/-! ## Members of interfaces and object types -/

/-- Reads the parameters of a signature. -/
def signatureParams (r : Rules) : Parser (List ParamForm) :=
  paramList (signatureParam r)

/-- Reads the end of a member. -/
def memberEnd : Parser Unit := do
  if ← eatMark "," then pure () else semicolon

/-- The name of a key that is an expression. -/
def keyName (e : Expression) : String :=
  e.name.getD (unquote (textBetween e.start e.stop))

/-- Reads the key of a member and gives its name. A key between brackets is named by what stands
between them, and a literal goes on as far as what could be called does. -/
def memberKey (r : Rules) : Parser String := do
  let token ← current
  match token.kind with
  | .word name _ => advance; return name.text
  | .string => return keyName (← r.callee)
  | .number => return keyName (← r.callee)
  | .privateName =>
    check false
    advance
    textFrom token.start
  | _ =>
    expectMark "["
    let e ← within Rules.bracketed r.assignment
    expectMark "]"
    return keyName e

/-- Whether an index signature starts here. -/
def atIndexSignature : Parser Bool :=
  looksLike do
    expectMark "["
    discard freeName
    require ((← isMark ":") || (← isMark ","))

/-- Reads an index signature. -/
def indexSignature (r : Rules) : Parser Unit := do
  expectMark "["
  discard word
  if ← eatMark "," then check false else expectMark ":"
  discard r.type
  expectMark "]"
  discard r.annotation?
  memberEnd

/-- Reads a getter or setter of an interface. A setter has no result, not even a written one. -/
def accessorSignature (r : Rules) : Parser MemberForm := do
  let first ← current
  let setter ← isWord "set"
  require (setter || (← isWord "get"))
  advance
  let name ← memberKey r
  if setter then
    let params ← signatureParams r
    require !params.isEmpty
  else
    expectMark "("
    expectMark ")"
    discard r.annotation?
  memberEnd
  return .accessor (← originOf first first) name setter

/-- Reads a signature from its type parameters to the end of the member. -/
def signatureMember (r : Rules) (first : Token) (role : MemberRole) (name : Option String) :
    Parser MemberForm := do
  let names ← typeParams r functionVariance
  let params ← signatureParams r
  let result ← result? r
  memberEnd
  return .callable (← originOf first first) role name names params result

/-- Reads a property or method of an interface. -/
def propertyOrMethod (r : Rules) (first : Token) (readonly : Bool) : Parser MemberForm := do
  let name ← memberKey r
  let optional ← eatMark "?"
  if (← isMark "(") || (← atAngle) then
    require !readonly
    signatureMember r first .method (some name)
  else
    let type ← r.annotation?
    memberEnd
    return .property (← originOf first first) name optional type

/-- Reads one member of an interface or object type. -/
def typeMember (r : Rules) : Parser MemberForm := do
  let first ← current
  let next ← peek
  if (← isMark "(") || (← atAngle) then
    signatureMember r first .callSignature none
  else if (← isWord "new") && (next.isMark "(" || next.isMark "<") then
    advance
    signatureMember r first .constructSignature none
  else
    let readonly := (← modifier ["readonly"]).isSome
    if ← atIndexSignature then
      indexSignature r
      return .index
    else if readonly then
      propertyOrMethod r first true
    else
      match ← speculate (accessorSignature r) with
      | some member => return member
      | none => propertyOrMethod r first false

/-- Reads the members of an interface or object type after the opening brace. -/
def typeMembers (r : Rules) : Parser (List MemberForm) := do
  let members ← within Rules.bracketed do
    repeating do
      if ← isMark "\x7d" then return none
      return some (← typeMember r)
  expectMark "\x7d"
  return members

/-! ## Types between brackets -/

/-- Reads a sign, if there is one. -/
def eatSign : Parser Bool := do
  if ← eatMark "+" then return true else eatMark "-"

/-- Whether a mapped type starts here. -/
def atMappedType : Parser Bool :=
  looksLike do
    expectMark "\x7b"
    if ← eatSign then
      require (← isWord "readonly")
    else
      discard (eatWord "readonly")
      expectMark "["
      discard freeName
      require (← isWord "in")

/-- Reads a mapped type. -/
def mappedType (r : Rules) : Parser Unit := do
  expectMark "\x7b"
  discard eatSign
  discard (eatWord "readonly")
  expectMark "["
  discard word
  expectWord "in"
  discard r.type
  if ← eatWord "as" then discard r.type
  expectMark "]"
  if ← eatSign then
    expectMark "?"
  else discard (eatMark "?")
  discard r.annotation?
  semicolon
  expectMark "\x7d"

/-- What an element of a tuple type stands for. -/
inductive TupleElement where
  | one
  /-- One value or none. -/
  | atMostOne
  /-- Any number of values. -/
  | several
  deriving DecidableEq

/-- Reads the label of a tuple element, if there is one. -/
def tupleLabel : Parser Unit := do
  discard <| attempt do
    discard (eatMark "...")
    discard word
    discard (eatMark "?")
    expectMark ":"

/-- Reads one element of a tuple type. Of an element with a label only the type counts. -/
def tupleElement (r : Rules) : Parser TupleElement := do
  tupleLabel
  if ← eatMark "..." then
    discard r.type
    return .several
  else
    discard r.type
    if ← eatMark "?" then return .atMostOne else return .one

/-- Whether no element that must be there comes after one that need not be. -/
def tupleFits : List TupleElement → Bool
  | [] => true
  | .atMostOne :: elements => !elements.contains .one
  | _ :: elements => tupleFits elements

/-- Reads the parts of a template after its opening backtick. The last argument bounds the number
of parts. -/
def templateParts (part : Parser Unit) (tagged : Bool) : Nat → Parser Unit
  | 0 => fail
  | n + 1 => do
    let rest := (← current).after
    match templatePart true (rest.length + 1) rest with
    | none => fail
    | some text =>
      require (tagged || text.meaningful)
      match text.ending with
      | .closed => continueAt false text.after
      | .substitution =>
        continueAt true text.after
        within Rules.bracketed part
        require (← isMark "\x7d")
        templateParts part tagged n

/-- Whether a template that goes on after its opening backtick has no substitutions. -/
def isPlainTemplate (rest : List Char) : Bool :=
  match templatePart true (rest.length + 1) rest with
  | some text => text.ending == .closed
  | none => false

/-- Reads a template whose opening backtick is the current token. -/
def template (part : Parser Unit) (tagged : Bool) : Parser Unit := do
  templateParts part tagged (← bound)

/-! ## Function types -/

/-- Whether a token cannot come after the first name of a parenthesized type, so that the
parenthesis opens parameters. -/
def endsParamName (token : Token) : Bool :=
  [":", ",", "?", "="].any token.isMark

/-- Whether a function type starts here. -/
def atFunctionType (r : Rules) : Parser Bool := do
  if ← atAngle then return true
  else if ← isMark "(" then
    looksLike do
      advance
      if (← isMark ")") || (← isMark "...") then pure ()
      else
        discard strayModifier
        discard r.pattern
        if endsParamName (← current) then pure ()
        else
          expectMark ")"
          require (← isMark "=>")
  else return false

/-- Reads a function or constructor type after the words that open it. -/
def functionType (r : Rules) (first : Token) : Parser TypeForm := do
  let names ← typeParams r functionVariance
  let params ← signatureParams r
  expectMark "=>"
  let result ← resultType r
  return .function (← originOf first first) names params result

/-! ## The levels of types -/

/-- The names of the types that the language itself has. -/
def typeWords : List String :=
  ["void", "null", "any", "boolean", "bigint", "never", "number", "object", "string", "symbol",
   "unknown", "undefined", "intrinsic"]

/-- Reads how the module of a type is to be loaded. -/
def loadOptions (r : Rules) : Parser Unit := do
  expectMark "\x7b"
  expectWord "with"
  expectMark ":"
  require (← isMark "\x7b")
  discard r.callee
  discard (eatMark ",")
  expectMark "\x7d"

/-- Reads a reference to a module whose type is meant. -/
def importType (r : Rules) : Parser Unit := do
  expectWord "import"
  expectMark "("
  check ((← current).kind == .string)
  advance
  if ← eatMark "," then
    if ← isMark "\x7b" then loadOptions r
  expectMark ")"
  if ← eatMark "." then discard (entityName properName)
  if ← isMark "<" then discard (typeArgs r)

/-- The keywords that name a type although no variable can have their name. -/
def typeNameWords : List String :=
  ["await", "break", "null", "void", "yield"]

/-- Whether a token can be the name of a type. -/
def namesType (token : Token) : Bool :=
  match token.kind with
  | .word _ (some keyword) =>
    keyword == "module" || typeNameWords.contains keyword || !openWords.contains keyword
  | .word _ none => true
  | _ => false

/-- Reads a type that starts with a word. -/
def wordType (r : Rules) (first : Token) : Parser TypeForm := do
  let next ← peek
  if first.isWord "this" then
    advance
    if (← isWord "is") && !(← atNewLine) then
      advance
      discard r.type
      return .other (← textFrom first.start)
    else return .word "this"
  else if first.isWord "asserts" && next.isWord "this" then
    advance
    advance
    if ← eatWord "is" then discard r.type
    return .other (← textFrom first.start)
  else if first.isWord "true" || first.isWord "false" ||
      (typeWords.any first.isWord && !next.isMark ".") then
    advance
    return .word (← textFrom first.start)
  else if first.isWord "typeof" then
    advance
    if ← isWord "import" then importType r else discard (entityName word)
    if (← isMark "<") && !(← atNewLine) then discard (typeArgs r)
    return .query (← textFrom first.start)
  else if first.isWord "import" then
    importType r
    return .other (← textFrom first.start)
  else
    let misplaced ← strayModifier
    check !misplaced
    require (misplaced || namesType first)
    let name ← entityName word
    return .named name (← typeArgs? r)

/-- Reads a type that needs no brackets before a postfix. -/
def primaryType (r : Rules) : Parser TypeForm := do
  let first ← current
  match first.kind with
  | .word _ _ => wordType r first
  | .number => advance; return .word (← textFrom first.start)
  | .bigint => advance; return .word (← textFrom first.start)
  | .string => advance; return .word (← textFrom first.start)
  | .punctuator "-" =>
    advance
    require ((← current).kind == .number || (← current).kind == .bigint)
    advance
    return .word (← textFrom first.start)
  | .punctuator "`" =>
    template (discard r.type) false
    return .word (← textFrom first.start)
  | .punctuator "(" =>
    advance
    let type ← r.type
    expectMark ")"
    return type
  | .punctuator "[" =>
    advance
    let elements ← commaList "]" (tupleElement r)
    require (tupleFits elements)
    return .other (← textFrom first.start)
  | .punctuator "\x7b" =>
    if ← atMappedType then
      mappedType r
      return .other (← textFrom first.start)
    else
      advance
      let members ← typeMembers r
      return .object (← originOf first first) members
  | _ => fail

/-- Reads a type with the brackets after it. -/
def postfixType (r : Rules) : Parser TypeForm := do
  let start := (← current).start
  let type ← primaryType r
  chain type fun type => do
    if (← isMark "[") && !(← atNewLine) then
      advance
      if ← eatMark "]" then return some (.array type)
      else
        discard r.type
        expectMark "]"
        return some (.other (← textFrom start))
    else return none

/-- Reads types with an operator between each two, which may also stand before the first. One type
alone is only itself. -/
def typeOperands (operator : String) (operand : Parser TypeForm) : Parser (List TypeForm) := do
  discard (eatMark operator)
  let first ← operand
  let others ← repeating do
    if ← eatMark operator then return some (← operand) else return none
  return first :: others

/-- Reads the constraint of an inferred type. It is not the condition of a conditional type. -/
def inferConstraint (r : Rules) : Parser Unit := do
  expectWord "extends"
  discard r.plainType
  require ((← context).noConditionalType || !(← isMark "?"))

/-- Reads a type with the operators before it. The last argument bounds their number. -/
def operatorType (r : Rules) : Nat → Parser TypeForm
  | 0 => fail
  | n + 1 => do
    let first ← current
    if first.isWord "keyof" || first.isWord "unique" || first.isWord "readonly" then
      advance
      discard (operatorType r n)
      return .other (← textFrom first.start)
    else if first.isWord "infer" then
      advance
      discard word
      if ← isWord "extends" then discard (speculate (inferConstraint r))
      return .other (← textFrom first.start)
    else postfixType r

/-- Reads an intersection of types. -/
def intersectionType (r : Rules) : Parser TypeForm := do
  let start := (← current).start
  match ← typeOperands "&" (do operatorType r (← bound)) with
  | [type] => return type
  | _ => return .other (← textFrom start)

/-- Reads a union of types. -/
def unionType (r : Rules) : Parser TypeForm := do
  match ← typeOperands "|" (intersectionType r) with
  | [type] => return type
  | types => return .union types

/-- Reads a type that has no condition. -/
def plainType (r : Rules) : Parser TypeForm := do
  let first ← current
  if ← atFunctionType r then functionType r first
  else if first.isWord "new" then
    advance
    functionType r first
  else if first.isWord "abstract" && (← peek).isWord "new" then
    advance
    advance
    functionType r first
  else unionType r

/-- Reads a type. What it is checked against has no condition, unless it stands deeper. -/
def type (r : Rules) : Parser TypeForm := do
  let start := (← current).start
  within (fun c => { c with noConditionalType := false }) do
    let checked ← plainType r
    if (← isWord "extends") && !(← atNewLine) then
      advance
      discard <| within (fun c => { c with noConditionalType := true }) (plainType r)
      expectMark "?"
      discard r.type
      expectMark ":"
      discard r.type
      return .other (← textFrom start)
    else return checked

end DocBlock.Source.Grammar
