import DocBlock.Source.Parser.Types

/-! # Functions and classes

Reading signatures with their bodies, and classes with their members. A body in an ambient
declaration, a second constructor with a body, and modifiers that do not fit together are refused. -/

namespace DocBlock.Source.Grammar

open DocBlock.Source.Parser

/-! ## Functions -/

/-- What is allowed inside a function. -/
def inFunction (isAsync isGenerator : Bool) (context : Context) : Context :=
  { Rules.bracketed context with
    isAsync, isGenerator, inFunction := true, inProperFunction := true, inParams := false,
    inField := false, inLoop := false, canBreak := false, labels := [] }

/-- What is allowed in the parameters of a function. -/
def inParams (context : Context) : Context :=
  { context with inFunction := false, inParams := true }

/-- Reads the statements of a block after its opening brace. -/
def blockStatements (r : Rules) : Parser Unit := do
  discard <| repeating do
    if ← isMark "\x7d" then return none
    return some (← r.statement true)
  expectMark "\x7d"

/-- Whether a token on a new line starts a statement after one that is a mere text. -/
def startsNewStatement (token : Token) : Bool :=
  match token.kind with
  | .punctuator text => ["\x7b", "\x7d", "@", "!", "~", "++", "--"].contains text
  | _ => !token.isWord "in" && !token.isWord "instanceof"

/-- Reads a statement that is a mere text, as written. -/
def directive : Parser String := do
  let token ← current
  require (token.kind == .string)
  advance
  let text ← textFrom token.start
  if ← eatMark ";" then return text
  let next ← current
  require (next.isMark "\x7d" || (next.lineBreak && startsNewStatement next))
  return text

/-- Whether the statements that follow begin with the directive for strict code. -/
def atStrictDirective : Parser Bool :=
  looksLike do
    let directives ← repeating (attempt directive)
    require (directives.contains "'use strict'" || directives.contains "\"use strict\"")

/-- Whether all parameters are mere names. -/
def areSimple (params : List ParamForm) : Bool :=
  params.all fun param =>
    let shape := shapeOf param
    shape.name.isSome && !shape.rest && shape.initializer.isNone

/-- Reads the body of a function; `simple` says whether its parameters are mere names. Nothing that
exists elsewhere has a body. -/
def functionBody (r : Rules) (simple : Bool) : Parser (List Code) := do
  check !(← context).ambient
  expectMark "\x7b"
  if !simple then check !(← atStrictDirective)
  return (← recording (blockStatements r)).2

/-- Reads the body of a function, unless the declaration ends without one. -/
def functionBody? (r : Rules) (simple : Bool) : Parser (Option (List Code)) := do
  if ← isMark "\x7b" then return some (← functionBody r simple)
  else
    semicolon
    return none

/-- Whether some parameter has a default value. -/
def hasDefaults (params : List ParamForm) : Bool :=
  params.any fun param => (shapeOf param).initializer.isSome

/-- Reads a function from its type parameters on. Without a body the declaration ends there, and no
parameter has a default value. -/
def functionTail (r : Rules) (isAsync isGenerator : Bool) : Parser FunctionForm :=
  within (inFunction isAsync isGenerator) do
    let typeParams ← typeParams r functionVariance
    let params ← within inParams (paramList (param r))
    let result ← result? r
    let body ← functionBody? r (areSimple params)
    check (body.isSome || !hasDefaults params)
    return { typeParams, params, result, body }

/-- Reads a function from its type parameters on; it has a body. -/
def functionWithBody (r : Rules) (isAsync isGenerator : Bool) : Parser Unit := do
  let function ← functionTail r isAsync isGenerator
  require function.body.isSome

/-- Whether no parameter but `this` is taken. -/
def takesNothing (params : List ParamForm) : Bool :=
  params.all fun param => (shapeOf param).name.map Word.text == some "this"

/-- Whether exactly one argument is taken. -/
def takesOne (params : List ParamForm) : Bool :=
  (params.filter fun param => (shapeOf param).name.map Word.text != some "this").length == 1 &&
    (params.head?.map fun param => !(shapeOf param).rest).getD true

/-! ## Heritage -/

/-- What an expression says about inheritance: the text before the generic arguments that end it,
and these, which may also follow it. -/
def heritageOf (r : Rules) (e : Expression) : Parser HeritageForm := do
  match e.instantiated with
  | some (name, args) => return { name, args }
  | none =>
    let args ← if ← isMark "<" then typeArgs r else pure []
    return { name := textBetween e.start e.stop, args }

/-- Reads the class that a class extends: any expression that can be called. -/
def superclass (r : Rules) : Parser HeritageForm := do
  heritageOf r (← r.leftHand)

/-- Whether a list of inherited types ends here. -/
def atHeritageEnd : Parser Bool := do
  let token ← current
  return token.isMark "\x7b" || token.isWord "extends" || token.isWord "implements"

/-- Reads a list of inherited types, which may be empty. -/
def heritageList (r : Rules) : Parser (List HeritageForm) :=
  repeating do
    if ← atHeritageEnd then return none
    let e ← r.inherited
    check (e.isPath || e.instantiated.isSome)
    let form ← heritageOf r e
    if !(← atHeritageEnd) then expectMark ","
    return some form

/-! ## Keys of members -/

/-- The key of a class member. -/
inductive MemberName where
  /-- A key that is a word. -/
  | word (name : String)
  /-- A key that is a literal or stands between brackets, as written. -/
  | other (text : String)
  /-- A name that starts with `#`. -/
  | hidden
  deriving DecidableEq

/-- The name that a member is documented under. -/
def MemberName.text? : MemberName → Option String
  | word name => some name
  | other text => some (unquote text)
  | hidden => none

/-- Whether a key names the constructor. -/
def MemberName.isConstructor : MemberName → Bool
  | word name => name == "constructor"
  | other text => text == "'constructor'" || text == "\"constructor\""
  | hidden => false

/-- Reads the key of a class member. -/
def memberName (r : Rules) : Parser MemberName := do
  let token ← current
  match token.kind with
  | .word name _ => advance; return .word name.text
  | .privateName =>
    advance
    check ((← textFrom token.start) != "#constructor")
    return .hidden
  | .string => advance; return .other (← textFrom token.start)
  | .number => advance; return .other (← textFrom token.start)
  | .bigint => advance; return .other (← textFrom token.start)
  | _ =>
    computedKey r
    return .other (← textFrom token.start)

/-! ## Members -/

/-- The modifiers that a class member is written with. -/
structure MemberModifiers where
  access : Option Access := none
  isDeclared : Bool := false
  /-- Whether `static` stands before all modifiers but those for access. -/
  leadsStatic : Bool := false
  /-- Whether `static` stands among the later modifiers. -/
  isStatic : Bool := false
  /-- Whether a property gets a getter and a setter. -/
  isGenerated : Bool := false
  isAbstract : Bool := false
  isOverride : Bool := false
  isReadonly : Bool := false

/-- What has been read of a class member. -/
structure MemberResult where
  /-- The member, when it is documented. -/
  form : Option ClassMemberForm := none
  /-- Whether it is a constructor with a body. -/
  isConstructorBody : Bool := false
  /-- Whether only a class that is abstract can have it. -/
  isAbstract : Bool := false

/-- Whether a token opens the parameters of a method. -/
def atMethod : Parser Bool := do
  return (← isMark "(") || (← isMark "<")

/-- Whether a token can come after the name of a property. A line end counts when `lines` says
so. -/
def atPropertyEnd (lines : Bool) : Parser Bool := do
  let token ← current
  return ["!", ":", "=", "\x7d", ";"].any token.isMark || (lines && (← atStatementEnd))

/-- Reads a method after its key. -/
def methodTail (r : Rules) (first : Token) (m : MemberModifiers) (isAsync isGenerator : Bool)
    (name : MemberName) : Parser MemberResult := do
  check (name != .hidden || m.access.isNone)
  let function ← functionTail r isAsync isGenerator
  check !(m.isAbstract && function.body.isSome && name != .hidden)
  let origin ← originOf first first
  let modifiers : Modifiers := { access := m.access, isStatic := m.leadsStatic }
  return {
    form := name.text?.map fun name => .method origin name modifiers function
    isAbstract := m.isAbstract && name != .hidden }

/-- Reads the parameters of a constructor, and says whether one of them declares a property. -/
def constructorParams (r : Rules) : Parser (List ParamForm × Bool) := do
  let params ← paramsBetween (shapeOf ·.1) (constructorParam r)
  return (params.map (·.1), params.any (·.2))

/-- Reads a constructor after its key. It has neither type parameters nor a result, and only with a
body it declares properties. -/
def constructorTail (r : Rules) (first : Token) (m : MemberModifiers) : Parser MemberResult := do
  check (!m.isAbstract && !m.isOverride && !m.leadsStatic)
  if ← isMark "<" then
    check false
    discard (typeParams r functionVariance)
  within (inFunction false false) do
    let (params, declares) ← within inParams (constructorParams r)
    check !(← isMark ":")
    discard r.annotation?
    let body ← functionBody? r (areSimple params && !declares)
    check (body.isSome || (!declares && !hasDefaults params))
    return {
      form := some (.constructor (← originOf first first) m.access params)
      isConstructorBody := body.isSome }

/-- Reads a getter or setter after the word that opens it. -/
def accessorTail (r : Rules) (first : Token) (m : MemberModifiers) (setter : Bool) :
    Parser MemberResult := do
  check !m.isReadonly
  let name ← memberName r
  check (!name.isConstructor && (name != .hidden || m.access.isNone))
  let function ← functionTail r false false
  check !(m.isAbstract && function.body.isSome && name != .hidden)
  check (if setter then takesOne function.params else takesNothing function.params)
  let origin ← originOf first first
  return {
    form := name.text?.map fun name => .accessor origin name setter
    isAbstract := m.isAbstract && name != .hidden }

/-- Reads a property after its key. A property with generated accessors is not documented. -/
def propertyTail (r : Rules) (first : Token) (m : MemberModifiers) (optional : Bool)
    (name : MemberName) : Parser MemberResult := do
  require !name.isConstructor
  check (name != .hidden || (!m.isDeclared && !m.isAbstract))
  if !optional then discard (eatMark "!")
  let type ← r.annotation?
  let initializer ←
    if ← eatMark "=" then
      pure (some (← within (fun c => { Rules.bracketed c with inField := true }) r.initializer))
    else pure none
  check (← eatSemicolon)
  if m.isGenerated then return {}
  check (name != .hidden || m.access.isNone)
  check !(m.isAbstract && initializer.isSome && name != .hidden)
  let origin ← originOf first first
  let modifiers : Modifiers := { access := m.access, isStatic := m.leadsStatic || m.isStatic }
  return {
    form := name.text?.map fun name => .property origin { name, initializer, modifiers, optional } type
    isAbstract := m.isAbstract && name != .hidden }

/-- Reads the modifiers after those for access and a leading `static`. The first argument bounds
their number. -/
def furtherModifiers : Nat → MemberModifiers → Parser MemberModifiers
  | 0, _ => fail
  | n + 1, m => do
    if (← isWord "static") && (← peek).isMark "\x7b" then return m
    match ← modifier ["abstract", "readonly", "override", "static"] with
    | some "abstract" =>
      check (!m.isAbstract && !m.isOverride)
      furtherModifiers n { m with isAbstract := true }
    | some "readonly" =>
      check !m.isReadonly
      furtherModifiers n { m with isReadonly := true }
    | some "override" =>
      check (!m.isOverride && !m.isReadonly && !m.isDeclared && (← context).hasParent)
      furtherModifiers n { m with isOverride := true }
    | some _ =>
      check !m.isOverride
      furtherModifiers n { m with isStatic := true }
    | none => return m

/-- Reads a block that is run when the class is made. What stands in it is not that of a function. -/
def staticBlock (r : Rules) : Parser MemberResult := do
  within (fun c => { Rules.bracketed c with inField := true }) do
    expectMark "\x7b"
    blockStatements r
  return {}

/-- Reads a class member that has a key, after its modifiers. -/
def keyedMember (r : Rules) (first : Token) (m : MemberModifiers) : Parser MemberResult := do
  let name ← memberName r
  let optional ← eatMark "?"
  let token ← current
  if ← atMethod then
    check !m.isDeclared
    require !m.isReadonly
    if name.isConstructor then constructorTail r first m else methodTail r first m false false name
  else
    let opensAccessor := (name == .word "get" || name == .word "set") && !(← atPropertyEnd false) &&
      !(token.lineBreak && token.isMark "*")
    if !opensAccessor && (← atPropertyEnd true) then propertyTail r first m optional name
    else if name == .word "async" && !token.lineBreak then
      let isGenerator ← eatMark "*"
      let name ← memberName r
      require !name.isConstructor
      check !m.isReadonly
      discard (eatMark "?")
      methodTail r first m true isGenerator name
    else if opensAccessor then accessorTail r first m (name == .word "set")
    else fail

/-- Reads a class member after all words that may stand before its further modifiers. -/
def modifiedMember (r : Rules) (first : Token) (m : MemberModifiers) : Parser MemberResult := do
  let m ← furtherModifiers (← bound) m
  if (m.leadsStatic || m.isStatic) && (← isMark "\x7b") then
    check (!m.isDeclared && m.access.isNone)
    staticBlock r
  else if (← isWord "static") && (← peek).isMark "\x7b" then
    check !(m.leadsStatic || m.isStatic || m.isAbstract || m.isOverride || m.isReadonly)
    advance
    staticBlock r
  else if !m.isAbstract && !m.isOverride && m.access.isNone && (← atIndexSignature) then
    indexSignature r
    return {}
  else if ← eatMark "*" then
    let name ← memberName r
    check (!m.isReadonly && !name.isConstructor)
    methodTail r first m false true name
  else keyedMember r first m

/-- Reads a member whose key is a word that could have been a modifier, if it is one. -/
def memberNamedBy (r : Rules) (first : Token) (m : MemberModifiers) (name : String) (lines : Bool) :
    Parser (Option MemberResult) := do
  if (← atMethod) || (← atPropertyEnd lines) || (← isMark "?") then
    let optional ← eatMark "?"
    if ← atMethod then return some (← methodTail r first m false false (.word name))
    else return some (← propertyTail r first m optional (.word name))
  else return none

/-- Reads a class member after a leading `static`. -/
def memberAfterStatic (r : Rules) (first : Token) (m : MemberModifiers) : Parser MemberResult := do
  if ← eatWord "accessor" then
    match ← memberNamedBy r first m "accessor" true with
    | some member => return member
    | none => modifiedMember r first { m with isGenerated := true }
  else modifiedMember r first m

/-- Reads a class member after the words for access and `declare`. -/
def memberAfterAccess (r : Rules) (first : Token) (m : MemberModifiers) : Parser MemberResult := do
  if ← eatWord "static" then
    match ← memberNamedBy r first m "static" false with
    | some member => return member
    | none => memberAfterStatic r first { m with leadsStatic := true }
  else memberAfterStatic r first m

/-- Reads the word that limits who can use a member, if there is one. The words for the variance of
a type parameter stand in its place only by mistake. -/
def memberAccess? : Parser (Option Access) := do
  let access := accessWord? (← current)
  if (← modifier ["public", "protected", "private", "in", "out"]).isSome then
    check access.isSome
    return access
  else return none

/-- Reads a class member. -/
def classMember (r : Rules) : Parser MemberResult := do
  let first ← current
  discard (decorators r)
  let leading ← eatWord "declare"
  let access ← memberAccess?
  let declared ← if leading then pure true else eatWord "declare"
  if declared then
    match ← memberNamedBy r first { access } "declare" true with
    | some member => return member
    | none => memberAfterAccess r first { access, isDeclared := true }
  else memberAfterAccess r first { access }

/-- Reads the members of a class after the opening brace. -/
def classMembers (r : Rules) (isAbstract : Bool) : Parser (List ClassMemberForm) := do
  let members ← repeating do
    if ← isMark "\x7d" then return none
    else if ← eatMark ";" then return some {}
    else return some (← classMember r)
  expectMark "\x7d"
  check ((← context).ambient || (members.filter (·.isConstructorBody)).length ≤ 1)
  check (isAbstract || members.all fun member => !member.isAbstract)
  return members.filterMap (·.form)

/-- Reads the class that a class extends, if there is one. No other may follow it. -/
def superclass? (r : Rules) : Parser (Option HeritageForm) := do
  if ← eatWord "extends" then
    let parent ← superclass r
    if ← eatMark "," then check (← heritageList r).isEmpty
    return some parent
  else return none

/-- Reads a class after its name. -/
def classTail (r : Rules) (isAbstract : Bool) : Parser ClassForm :=
  enclosed .classBody do
    let typeParams ← typeParams r classVariance
    let parent ← superclass? r
    let interfaces ← if ← eatWord "implements" then heritageList r else pure []
    expectMark "\x7b"
    let members ← within
      (fun c => { Rules.bracketed c with hasParent := parent.isSome, inClass := true })
      (classMembers r isAbstract)
    return { typeParams, parent, interfaces, members }

/-- The names that no class may have. -/
def takenTypeNames : List String :=
  ["any", "unknown", "never", "number", "bigint", "boolean", "string", "symbol", "void", "object"]

/-- Reads the name of a class. -/
def className : Parser String := do
  let name ← bindingName
  check !takenTypeNames.contains name
  return name

end DocBlock.Source.Grammar
