import DocBlock.Source.Parser.Classes
import DocBlock.Source.Parser.Elements

/-! # Expressions

Expressions are read for their extent, for the literals and names they may be, and for what can be
assigned to. Arrow functions are recognized by trying to read their parameters first. -/

namespace DocBlock.Source.Grammar

open DocBlock.Source.Parser

/-! ## Literals of several parts -/

/-- The expression from a place up to the end of the last token. -/
def endedHere (start : List Char) : Parser Expression := do
  return { start, stop := (← get).last }

/-- Reads one element of an array, and says whether it can be a part of a pattern. -/
def arrayElement (r : Rules) : Parser Bool := do
  if ← eatMark "..." then
    let e ← r.assignment
    -- In a pattern nothing follows the element that takes the rest.
    return e.target && (← isMark "]")
  else return (← r.assignment).isPart

/-- Reads an array after its opening bracket. -/
def arrayLiteral (r : Rules) (start : List Char) : Parser Expression := do
  let elements ← within Rules.bracketed <| repeating do
    if ← isMark "]" then return none
    else if ← eatMark "," then return some true
    else
      let element ← arrayElement r
      if !(← isMark "]") then expectMark ","
      return some element
  expectMark "]"
  return { ← endedHere start with target := elements.all id }

/-- What has been read of a property of an object. -/
structure ReadProperty where
  /-- Whether it can be a part of a pattern. -/
  isPart : Bool := false
  /-- Whether it is a variable with a default value. -/
  isDefaulted : Bool := false

/-- Reads a method of an object after its key. -/
def objectMethod (r : Rules) (isAsync isGenerator : Bool) : Parser ReadProperty :=
  enclosed .method do
    discard (functionTail r isAsync isGenerator)
    return {}

/-- Reads a getter or setter of an object after its key. -/
def objectAccessor (r : Rules) (setter : Bool) : Parser ReadProperty :=
  enclosed (if setter then .setter else .getter) do
    let function ← functionTail r false false
    check (if setter then takesOne function.params else takesNothing function.params)
    return {}

/-- Reads a property whose key is also the name of a variable, after the key. -/
def shorthand (r : Rules) (name : String) : Parser ReadProperty := do
  require ((← isMark ",") || (← isMark "=") || (← isMark "\x7d"))
  check (isShorthand name)
  if ← eatMark "=" then
    discard r.assignment
    return { isPart := true, isDefaulted := true }
  else return { isPart := true }

/-- Reads what follows the key of a property of an object. -/
def propertyValue (r : Rules) (key : MemberName) (modified : Bool) : Parser ReadProperty := do
  if (← isMark "(") || (← isMark "<") then objectMethod r false false
  else if ← eatMark ":" then return { isPart := (← r.assignment).isPart }
  else
    match key with
    | .word name =>
      check !(← eatMark "?")
      let token ← current
      if [",", "=", "\x7d"].any token.isMark then shorthand r name
      else if name == "async" then
        check !modified
        let isGenerator ← eatMark "*"
        discard (memberName r)
        objectMethod r true isGenerator
      else
        require (name == "get" || name == "set")
        check !modified
        discard (memberName r)
        objectAccessor r (name == "set")
    | _ => fail

/-- Reads one property of an object. -/
def objectProperty (r : Rules) : Parser ReadProperty := do
  if ← eatMark "..." then
    let e ← r.assignment
    return { isPart := e.target && (← isMark "\x7d") }
  else if ← eatMark "*" then
    discard (memberName r)
    objectMethod r false true
  else
    let modified ← strayModifier
    let key ← memberName r
    require (key != .hidden)
    propertyValue r key modified

/-- Reads an object after its opening brace. -/
def objectLiteral (r : Rules) (start : List Char) : Parser Expression := do
  let properties ← within Rules.bracketed <| repeating do
    if ← isMark "\x7d" then return none
    let property ← objectProperty r
    if !(← isMark "\x7d") then expectMark ","
    return some property
  expectMark "\x7d"
  return { ← endedHere start with
    target := properties.all (·.isPart)
    holdsDefault := properties.any (·.isDefaulted) }

/-- Reads an expression between parentheses, after the opening one. A comma at its end means nothing. -/
def parenthesized (r : Rules) (start : List Char) : Parser Expression := do
  let items ← within Rules.bracketed (commaList ")" r.assignment)
  require !items.isEmpty
  check !(items.any (·.holdsDefault))
  let e ← endedHere start
  match items with
  | [item] =>
    return { e with place := item.place, target := item.place, isValue := item.isValue,
                    isCall := item.isCall, isEnclosed := true }
  | _ => return e

/-! ## Primary expressions -/

/-- Reads a function expression after the word that opens it. -/
def functionExpression (r : Rules) (isAsync : Bool) : Parser Unit :=
  enclosed .function do
    let isGenerator ← eatMark "*"
    if (← current).isAnyWord then discard bindingName
    functionWithBody r isAsync isGenerator

/-- Reads a class expression. -/
def classExpression (r : Rules) : Parser Unit := do
  outerDecorators r
  expectWord "class"
  if (← current).isAnyWord && !(← isWord "extends") && !(← isWord "implements") then
    discard className
  discard (classTail r false)

/-- Reads an expression that starts with a word. -/
def wordExpression (r : Rules) (first : Token) : Parser Expression := do
  let next ← peek
  if first.isWord "this" then advance; endedHere first.start
  else if first.isWord "null" then
    advance
    return { ← endedHere first.start with isValue := true }
  else if first.isWord "true" || first.isWord "false" then
    advance
    return { ← endedHere first.start with literal := some .boolean, isValue := true }
  else if first.isWord "class" then classExpression r; endedHere first.start
  else if first.isWord "function" then advance; functionExpression r false; endedHere first.start
  else if first.isWord "async" && next.isWord "function" && !next.lineBreak then
    advance
    advance
    functionExpression r true
    endedHere first.start
  else
    let name ← freeName
    check !(name == "arguments" && (← context).inField)
    let free := name != "eval" && name != "arguments"
    return { ← endedHere first.start with
      name := some name, place := free, target := free, isPath := true }

/-- Reads an expression that no operator is part of. -/
def primary (r : Rules) : Parser Expression := do
  let first ← current
  match first.kind with
  | .word _ _ => wordExpression r first
  | .privateName => advance; endedHere first.start
  | .number => advance; return { ← endedHere first.start with literal := some .number, isValue := true }
  | .string => advance; return { ← endedHere first.start with literal := some .string, isValue := true }
  | .bigint => advance; return { ← endedHere first.start with isValue := true }
  | .punctuator "(" => advance; parenthesized r first.start
  | .punctuator "[" => advance; arrayLiteral r first.start
  | .punctuator "\x7b" => advance; objectLiteral r first.start
  | .punctuator "`" =>
    template (discard r.expression) false
    return { ← endedHere first.start with isPlainTemplate := isPlainTemplate first.after }
  | .punctuator "@" => classExpression r; endedHere first.start
  | .punctuator text =>
    require (text == "/" || text == "/=")
    match first.asRegex? with
    | some token =>
      replaceToken token
      advance
      return { ← endedHere first.start with isValue := true }
    | none => fail
  | _ => fail

/-! ## Calls and accesses -/

/-- The operators between two operands that words and single tokens spell, with how tightly they
bind. -/
def binaryLevel? (token : Token) : Option Nat :=
  match token.kind with
  | .punctuator "??" => some 1
  | .punctuator "||" => some 1
  | .punctuator "&&" => some 2
  | .punctuator "|" => some 3
  | .punctuator "^" => some 4
  | .punctuator "&" => some 5
  | .punctuator "==" => some 6
  | .punctuator "!=" => some 6
  | .punctuator "===" => some 6
  | .punctuator "!==" => some 6
  | .punctuator "<" => some 7
  | .punctuator "<=" => some 7
  | .punctuator ">" => some 7
  | .word _ (some "instanceof") => some 7
  | .word _ (some "in") => some 7
  | .word _ (some "as") => some 7
  | .punctuator "<<" => some 8
  | .punctuator "+" => some 9
  | .punctuator "-" => some 9
  | .punctuator "*" => some 10
  | .punctuator "/" => some 10
  | .punctuator "%" => some 10
  | .punctuator "**" => some 11
  | _ => none

/-- The reserved words that can start an expression. -/
def expressionWords : List String :=
  ["this", "super", "null", "true", "false", "new", "delete", "void", "typeof", "yield", "await",
   "function", "class", "import"]

/-- Whether a token can start an expression other than an object. -/
def startsOperand (token : Token) : Bool :=
  match token.kind with
  | .word _ keyword =>
    token.isFreeName || (keyword.map expressionWords.contains).getD false
  | .punctuator text =>
    ["(", "[", "+", "-", "~", "!", "++", "--", "<", "/", "/=", "`", "@"].contains text
  | .ending => false
  | .invalid => false
  | _ => true

/-- Whether a token can start an expression. -/
def startsExpression (token : Token) : Bool :=
  token.isMark "\x7b" || startsOperand token

/-- Whether generic arguments before a token can stand without a call; otherwise the brackets around
them compare. -/
def followsTypeArgs (token : Token) : Bool :=
  !(["<", "<<", ">", "+", "-", "(", "`"].any token.isMark) &&
    (token.lineBreak || (binaryLevel? token).isSome || token.isWord "satisfies" ||
      !startsOperand token)

/-- Whether the bracket that has just been read is the first character of an operator. -/
def endsInOperator : Parser Bool := do
  let rest := (← get).last
  return rest.head? == some '=' || rest.head? == some '>'

/-- Reads generic arguments that belong to a value without a call. -/
def instantiation (r : Rules) (e : Expression) : Parser Expression := do
  let args ← typeArgs r
  require !(← endsInOperator)
  require (followsTypeArgs (← current))
  return { ← endedHere e.start with
    place := e.place, target := e.place, isPath := e.isPath,
    instantiated := some (textBetween e.start e.stop, args) }

/-- Reads the name after a dot. -/
def accessedName : Parser Unit := do
  if (← current).kind == .privateName then advance else discard word

/-- Reads an access between square brackets. -/
def indexAccess (r : Rules) : Parser Unit := do
  expectMark "["
  discard (within Rules.bracketed r.expression)
  expectMark "]"

/-- A part of an expression that has just been accessed. -/
def accessTo (e : Expression) : Parser Expression := do
  return { ← endedHere e.start with
    place := !e.isOptional, target := !e.isOptional, isPath := !e.isOptional,
    isOptional := e.isOptional }

/-- Reads the arguments of a call of an expression. -/
def callOf (r : Rules) (e : Expression) : Parser Expression := do
  arguments r
  return { ← endedHere e.start with isCall := !e.isOptional, isOptional := e.isOptional }

/-- Reads a template after what it is passed to. -/
def taggedTemplate (r : Rules) (e : Expression) : Parser Expression := do
  check !e.isOptional
  template (discard r.expression) true
  endedHere e.start

/-- Reads what follows the mark of an access that may find nothing. -/
def optionalAccess (r : Rules) : Parser Unit := do
  if ← isMark "[" then indexAccess r
  else if ← isMark "(" then arguments r
  else if ← atAngle then
    discard (typeArgs r)
    arguments r
  else accessedName

/-- Reads generic arguments with the call or template that they belong to. -/
def genericCall (r : Rules) (calls : Bool) (e : Expression) : Parser Expression := do
  discard (typeArgs r)
  if calls && (← isMark "(") then callOf r e
  else
    require (← isMark "`")
    taggedTemplate r e

/-- Reads generic arguments after an expression, with what they belong to, if there are some. -/
def generic? (r : Rules) (calls : Bool) (e : Expression) : Parser (Option Expression) := do
  match ← speculate (genericCall r calls e) with
  | some e => return some e
  | none => speculate (instantiation r e)

/-- Reads one access, call or assertion after an expression, if there is one; `calls` says whether it
may be a call, and `indexed` whether it may stand between square brackets. -/
def subscript (r : Rules) (calls indexed : Bool) (e : Expression) : Parser (Option Expression) := do
  let token ← current
  if ← eatMark "." then
    accessedName
    return some (← accessTo e)
  else if ← eatMark "?." then
    optionalAccess r
    return some { ← endedHere e.start with isOptional := true }
  else if token.isMark "[" && indexed then
    indexAccess r
    return some (← accessTo e)
  else if token.isMark "!" && !token.lineBreak then
    advance
    return some { ← endedHere e.start with place := e.place, target := e.place }
  else if token.isMark "(" && calls then return some (← callOf r e)
  else if token.isMark "`" then return some (← taggedTemplate r e)
  else if token.isMark "<" then generic? r calls e
  else return none

/-- Reads all accesses, calls and assertions after an expression. -/
def subscripts (r : Rules) (calls indexed : Bool) (e : Expression) : Parser Expression :=
  chain e (subscript r calls indexed)

/-- Reads generic arguments that a call follows, if there are some. -/
def callTypeArgs (r : Rules) : Parser Unit := do
  if ← atAngle then
    discard <| speculate do
      discard (typeArgs r)
      require (← isMark "(")

/-- Reads the word `super` with what has to follow it. -/
def superExpression (r : Rules) (calls : Bool) : Parser Expression := do
  let first ← current
  expectWord "super"
  let e ← endedHere first.start
  if ← eatMark "." then
    discard word
    accessTo e
  else if ← isMark "[" then
    indexAccess r
    accessTo e
  else
    require calls
    callOf r e

/-- Reads a dynamic import or the description of the module itself. -/
def importExpression (r : Rules) : Parser Expression := do
  let first ← current
  expectWord "import"
  if ← eatMark "." then
    let name ← word
    if name == "meta" then endedHere first.start
    else
      require (name == "source" || name == "defer")
      callOf r (← endedHere first.start)
  else callOf r (← endedHere first.start)

/-- Reads what tells how a function was called, after the word `new` and a dot. -/
def newTarget : Parser Unit := do
  expectWord "target"
  let context ← context
  check (context.inProperFunction || context.inParams || context.inClass)

/-- Reads what can be called, without calls, which may be the creation of an object. The last
argument bounds how many of these are nested. -/
def calleeWithin (r : Rules) : Nat → Parser Expression
  | 0 => fail
  | n + 1 => do
    let first ← current
    if ← eatWord "new" then
      if ← eatMark "." then newTarget
      else
        let created ← calleeWithin r n
        require !created.isOptional
        callTypeArgs r
        if ← isMark "(" then arguments r
      subscripts r false true (← endedHere first.start)
    else
      let e ←
        if first.isWord "super" then superExpression r false
        else if first.isWord "import" then importExpression r
        else primary r
      subscripts r false true e

/-- Reads what can be called, without calls. -/
def callee (r : Rules) : Parser Expression := do
  calleeWithin r (← bound)

/-- Reads what can be called or assigned to. An element with tags is nothing more than that. -/
def leftHand (r : Rules) : Parser Expression := do
  let first ← current
  if first.isMark "<" && (← context).elements then
    r.element
    endedHere first.start
  else if first.isWord "super" then subscripts r true true (← superExpression r true)
  else if first.isWord "import" then subscripts r true true (← importExpression r)
  else
    let e ← callee r
    callTypeArgs r
    if ← isMark "(" then subscripts r true true (← callOf r e) else return e

/-- Reads what a class or interface inherits from, beside its parent class. -/
def inherited (r : Rules) : Parser Expression := do
  let first ← current
  discard word
  subscripts r false false { ← endedHere first.start with isPath := true }

/-- Reads a decorator after its mark. -/
def decorator (r : Rules) : Parser Unit := do
  let first ← current
  if ← eatMark "(" then
    discard (within Rules.bracketed r.expression)
    expectMark ")"
  else
    discard bindingName
    discard (subscripts r true false (← endedHere first.start))
  if ← isMark "<" then
    discard (typeArgs r)
    arguments r
  else if ← isMark "(" then arguments r

/-! ## Operators -/

/-- The operators that stand before an operand. -/
def isUnaryOperator (token : Token) : Bool :=
  ["!", "~", "+", "-"].any token.isMark || ["typeof", "void", "delete"].any token.isWord

/-- Reads an operand after the type that it is said to have, which stands between angle brackets. -/
def typeAssertion (r : Rules) (start : List Char) : Parser Expression := do
  if ← eatWord "const" then
    expectMark ">"
    discard r.unary
    endedHere start
  else
    discard r.type
    expectMark ">"
    let e ← r.unary
    return { ← endedHere start with place := e.place, target := e.place }

/-- Reads an operand with the operators that bind it most tightly. -/
def unary (r : Rules) : Parser Expression := do
  let first ← current
  let context ← context
  if isUnaryOperator first then
    advance
    discard r.unary
    return { ← endedHere first.start with isUnary := true }
  else if first.isMark "++" || first.isMark "--" then
    advance
    let e ← r.unary
    check e.isCountable
    endedHere first.start
  else if first.isWord "await" then
    check (if context.inFunction then context.isAsync else !context.inParams)
    advance
    discard r.unary
    return { ← endedHere first.start with isUnary := true }
  else if first.isMark "<" && !context.elements then
    advance
    typeAssertion r first.start
  else
    let e ← leftHand r
    if !(← atNewLine) && ((← isMark "++") || (← isMark "--")) then
      check e.isCountable
      advance
      endedHere first.start
    else return e

/-- The operators that begin with a closing angle bracket, longer ones first. -/
def angleOperators : List (String × Option Nat) :=
  [(">>>=", none), (">>>", some 8), (">>=", none), (">>", some 8), (">=", some 7), (">", some 7)]

/-- How tightly the operator at the current place binds, and where it ends. -/
def binaryOperator? (token : Token) : Option (Nat × List Char) :=
  if token.isMark ">" then
    match angleOperators.find? fun (text, _) => Text.startsWith text.toList token.start with
    | some (text, some level) => some (level, token.start.drop text.length)
    | _ => none
  else (binaryLevel? token).map fun level => (level, token.after)

/-- Whether an operator between two operands stands here that is no word. -/
def atOperator : Parser Bool := do
  let token ← current
  return !token.isAnyWord && (binaryOperator? token).isSome

/-- Reads the type that an expression is said to have, after the word `as` or `satisfies`. -/
def assertedType (r : Rules) (e : Expression) : Parser Expression := do
  let isCast ← isWord "as"
  advance
  if isCast && (← isWord "const") then
    advance
    endedHere e.start
  else
    discard r.type
    return { ← endedHere e.start with place := e.place, target := e.place }

/-- Whether an operator of a level at least as high as the given one stands at a token, where `in` may
end the expression. -/
def continuesAt (context : Context) (level operator : Nat) (token : Token) : Bool :=
  level ≤ operator && !(token.isWord "in" && context.noIn) && !(token.isWord "as" && token.lineBreak)

/-- Reads the operators that bind at least as tightly as the given level, with their right operands.
The last argument bounds how many levels are nested. -/
def binaryTail (r : Rules) : Nat → Nat → Expression → Parser Expression
  | 0, _, _ => fail
  | n + 1, level, left =>
    chain left fun left => do
      let token ← current
      if token.isWord "satisfies" && !token.lineBreak then return some (← assertedType r left)
      match binaryOperator? token with
      | none => return none
      | some (operator, after) =>
        if !continuesAt (← context) level operator token then return none
        else if token.isWord "as" then return some (← assertedType r left)
        else
          let isPower := token.isMark "**"
          require !(isPower && left.isUnary)
          continueAt token.kind.keepsComment after
          let right ← binaryTail r n (if isPower then operator else operator + 1) (← r.unary)
          -- Whether something is absent and whether it is true are not asked in one breath.
          check !(token.isMark "??" && (left.isLogical || right.isLogical))
          return some { ← endedHere left.start with
            isValue := true, isLogical := token.isMark "||" || token.isMark "&&" }

/-- Reads a binary expression. -/
def binary (r : Rules) : Parser Expression := do
  binaryTail r (← bound) 1 (← r.unary)

/-- Reads a conditional expression. -/
def conditional (r : Rules) : Parser Expression := do
  let test ← binary r
  if ← eatMark "?" then
    let branch (c : Context) : Context := { c with inConditional := true, beforeColon := false }
    discard (within (fun c => { branch c with noIn := false, beforeColon := true }) r.assignment)
    expectMark ":"
    discard (within branch r.assignment)
    endedHere test.start
  else return test

/-! ## Arrow functions -/

/-- What is allowed inside an arrow function. Its body ends where the expression around it ends. -/
def inArrow (isAsync : Bool) (context : Context) : Context :=
  { inFunction isAsync false context with
    noIn := context.noIn, beforeColon := context.beforeColon,
    inProperFunction := context.inProperFunction, inParams := context.inParams,
    inField := context.inField }

/-- Reads the arrow between the parameters and the body of a function. -/
def arrowMark : Parser Unit := do
  require !(← atNewLine)
  expectMark "=>"

/-- Reads the body of an arrow function; `simple` says whether its parameters are mere names. -/
def arrowBody (r : Rules) (isAsync simple : Bool) : Parser Unit :=
  within (inArrow isAsync) do
    if ← isMark "\x7b" then discard (within Rules.bracketed (functionBody r simple))
    else discard r.assignment

/-- Reads an arrow function with one parameter that is a mere name. -/
def shortArrow (r : Rules) (isAsync : Bool) : Parser Unit := do
  discard bindingName
  arrowMark
  arrowBody r isAsync true

/-- Reads one parameter of an arrow function. It has no decorators, none is called `this`, and only a
name may be marked as one that may be left out. -/
def arrowParam (r : Rules) : Parser ParamShape := do
  check !(← strayModifier)
  let rest ← eatMark "..."
  require !(← isWord "this")
  let name ← r.pattern
  let optional ← if name.isSome then eatMark "?" else pure false
  check !(rest && optional)
  discard r.annotation?
  if ← eatMark "=" then
    require !rest
    return { name, optional, initializer := some (← r.initializer) }
  else return { name, optional, rest }

/-- Reads the parameters of an arrow function, and says whether they are mere names. They are read
where the function stands, not inside it. -/
def arrowParams (r : Rules) (isAsync : Bool) : Parser Bool := do
  if isAsync then expectWord "async"
  let params ← paramsBetween id (arrowParam r)
  return params.all fun shape => shape.name.isSome && !shape.rest && shape.initializer.isNone

/-- Reads an arrow function from its parameters up to its arrow, and says whether the parameters are
mere names. Before the colon of a conditional expression no type of the result is looked for. -/
def arrowHead (r : Rules) (isAsync : Bool) : Parser Bool := do
  let simple ← arrowParams r isAsync
  if (← isMark ":") && !(← context).beforeColon then
    discard <| speculate do
      discard (result? r)
      require (← isMark "=>")
  arrowMark
  return simple

/-- Reads an arrow function with the type of its result in a branch of a conditional expression. It
is one only if the colon of that expression, when it is still to come, follows. -/
def annotatedArrow (r : Rules) (isAsync : Bool) : Parser Unit := do
  let simple ← arrowParams r isAsync
  require (← isMark ":")
  let found ← speculate do
    discard (result? r)
    expectMark "=>"
    arrowBody r isAsync simple
    if (← context).beforeColon then require (← isMark ":")
  require found.isSome

/-- Reads an arrow function from its parameters on, if there is one. -/
def arrow? (r : Rules) (isAsync : Bool) : Parser Bool := do
  let annotated ←
    if (← context).inConditional then attempt (annotatedArrow r isAsync) else pure none
  if annotated.isSome then return true
  match ← attempt (arrowHead r isAsync) with
  | some simple =>
    let hasBlock ← isMark "\x7b"
    arrowBody r isAsync simple
    -- An operator after a block is taken for one even at the beginning of a line.
    check !(hasBlock && (← atOperator))
    return true
  | none => return false

/-- Reads an asynchronous arrow function with type parameters. -/
def asyncGenericArrow (r : Rules) : Parser Unit := do
  expectWord "async"
  discard (typeParams r functionVariance)
  let params ← paramList (param r)
  discard (result? r)
  expectMark "=>"
  arrowBody r true (areSimple params)

/-- Reads an arrow function without type parameters, or one that is asynchronous, if there is one. -/
def plainArrow? (r : Rules) : Parser Bool := do
  let first ← current
  let next ← peek
  if first.isFreeName && next.isMark "=>" && !next.lineBreak then
    shortArrow r false
    return true
  else if first.isMark "(" then arrow? r false
  else if first.isWord "async" && next.isMark "<" && !(← context).elements then
    return (← speculate (asyncGenericArrow r)).isSome
  else if first.isWord "async" && !next.lineBreak && next.isMark "(" then arrow? r true
  else if first.isWord "async" && !next.lineBreak && next.isFreeName && !next.isWord "as" then
    advance
    shortArrow r true
    return true
  else return false

/-- Reads an arrow function with type parameters. -/
def genericArrow (r : Rules) : Parser Unit := do
  discard (typeParams r functionVariance)
  require (← within (fun c => { c with beforeColon := false }) (plainArrow? r))

/-- Reads an arrow function, if there is one. -/
def arrowFunction? (r : Rules) : Parser Bool := do
  if (← isMark "<") && (← peek).isAnyWord then return (← speculate (genericArrow r)).isSome
  else plainArrow? r

/-! ## Assignments -/

/-- The operators that assign, apart from the plain one. -/
def assignmentOperators : List String :=
  ["+=", "-=", "*=", "/=", "%=", "**=", "<<=", ">>=", ">>>=", "&=", "|=", "^=", "&&=", "||=", "??="]

/-- The operator that assigns at the current place, and where it ends. -/
def assignmentOperator? (token : Token) : Option (List Char) :=
  if token.isMark ">" then
    (angleOperators.find? fun (text, _) => Text.startsWith text.toList token.start).bind
      fun (text, level) => if level.isNone then some (token.start.drop text.length) else none
  else
    match token.kind with
    | .punctuator text => if assignmentOperators.contains text then some token.after else none
    | _ => none

/-- Reads what a generator yields. -/
def yieldExpression (r : Rules) : Parser Expression := do
  let first ← current
  let context ← context
  require (context.inFunction || !context.inParams)
  expectWord "yield"
  if !(← atNewLine) && ((← eatMark "*") || startsExpression (← current)) then discard r.assignment
  endedHere first.start

/-- Reads an assignment, or what could be assigned to. -/
def assignmentOrOperand (r : Rules) : Parser Expression := do
  let e ← conditional r
  if ← isMark "=" then
    require e.isAssignable
    advance
    discard r.assignment
    return { ← endedHere e.start with defaulted := e.target }
  else
    match assignmentOperator? (← current) with
    | some after =>
      require e.place
      continueAt false after
      discard r.assignment
      endedHere e.start
    | none => return e

/-- Reads an expression without a comma. -/
def assignment (r : Rules) : Parser Expression := do
  let first ← current
  let (isArrow, code) ← collecting (arrowFunction? r)
  if isArrow then
    note (.node .arrow code)
    endedHere first.start
  else if first.isWord "yield" && (← context).isGenerator then yieldExpression r
  else assignmentOrOperand r

end DocBlock.Source.Grammar
