import DocBlock.Source.Parser.Params

/-! # Elements

Elements with tags, attributes and text between the tags, which stand among the expressions of
some files. The text between tags does not consist of tokens, so it is read from the place where a
tag ends. -/

namespace DocBlock.Source.Grammar

open DocBlock.Source.Parser

/-- Reads a name at the current token; it may hold dashes. -/
def elementWord : Parser String := do
  let token ← current
  match readElementName? token.start with
  | some rest =>
    continueAt true rest
    return textBetween token.start rest
  | none => fail

/-- Reads the name of a tag, which may be qualified by dots or by one colon. White space and comments
around these do not belong to the name. -/
def tagName : Parser String := do
  let first ← elementWord
  if ← eatMark ":" then return first ++ ":" ++ (← elementWord)
  else
    let others ← repeating do
      if ← eatMark "." then return some ("." ++ (← elementWord)) else return none
    return first ++ String.join others

/-- Reads the value of an attribute. -/
def attributeValue (r : Rules) : Parser Unit := do
  let token ← current
  match token.start with
  | '\x7b' :: _ =>
    advance
    discard (eatMark "...")
    discard (within Rules.bracketed r.expression)
    expectMark "\x7d"
  | '<' :: _ => r.element
  | c :: rest =>
    require (c == '"' || c == '\'')
    match attributeText? c rest with
    | some rest => continueAt true rest
    | none => fail
  | [] => fail

/-- Reads the attributes of a tag. -/
def attributes (r : Rules) : Parser Unit := do
  discard <| repeating do
    if (← isMark "/") || (← isMark ">") then return none
    else if ← eatMark "\x7b" then
      expectMark "..."
      discard (within Rules.bracketed r.assignment)
      expectMark "\x7d"
      return some ()
    else
      discard elementWord
      if ← eatMark ":" then discard elementWord
      if ← isMark "=" then
        -- The value is not a token of its own: it is read from the place where it starts.
        advance
        attributeValue r
      return some ()

/-- Whether a closing tag starts at a place. -/
def atClosingTag (cs : List Char) : Bool :=
  match cs with
  | '<' :: rest => ((readGap false .between {} rest).map fun (_, rest) => rest.head? == some '/').getD false
  | _ => false

/-- Reads what stands between an opening and a closing tag, from the place where the opening tag
ends. The last argument bounds the number of pieces. -/
def children (r : Rules) : Nat → List Char → Parser Unit
  | 0, _ => fail
  | n + 1, place =>
    match elementText? place with
    | none => fail
    | some (_, rest) =>
      if atClosingTag rest then continueAt true rest
      else
        match rest with
        | '<' :: _ => do
          continueAt true rest
          r.element
          children r n (← get).last
        | '\x7b' :: _ => do
          continueAt true rest
          expectMark "\x7b"
          if !(← isMark "\x7d") then
            discard (eatMark "...")
            discard (within Rules.bracketed r.expression)
          require (← isMark "\x7d")
          children r n (← current).after
        | _ => fail

/-- Reads a closing tag with the given name, up to its angle bracket, and gives the place after
it. -/
def closingTag (name : String) : Parser (List Char) := do
  expectMark "<"
  expectMark "/"
  let closing ← if ← isMark ">" then pure "" else tagName
  require (closing == name && (← isMark ">"))
  return (← current).after

/-- Reads an element. What follows it is the current token. -/
def element (r : Rules) : Parser Unit := do
  expectMark "<"
  if ← isMark ">" then
    children r (← bound) (← current).after
    continueAt false (← closingTag "")
  else
    let name ← tagName
    if ← atAngle then
      expectAngle
      discard (commaList ">" r.type)
    attributes r
    if ← eatMark "/" then
      require (← isMark ">")
      continueAt false (← current).after
    else
      require (← isMark ">")
      children r (← bound) (← current).after
      continueAt false (← closingTag name)

end DocBlock.Source.Grammar
