import DocBlock.Source.NameChars
import DocBlock.Source.Token
import DocBlock.Text.Lines

/-! # Reading tokens

One token is read at a time, because what a character opens depends on the grammar: a slash may
divide or open a regular expression, and text stands between the tags of an element. The general
reader is `Token.read`; `Token.asRegex?`, `templatePart` and `elementText` read at the places where
the grammar asks for them. A `>` is always a token of its own, since it may close a list of types. -/

namespace DocBlock.Source

/-! ## White space and comments -/

/-- Whether a character ends a line. -/
def isLineEnd (c : Char) : Bool :=
  c == '\n' || c == '\r' || c.toNat == 0x2028 || c.toNat == 0x2029

/-- Whether a character separates tokens inside a line. The next-line control and the space of no
width do too. -/
def isSpace (c : Char) : Bool :=
  let n := c.toNat
  n == 0x09 || n == 0x0B || n == 0x0C || n == 0x20 || n == 0x85 || n == 0xA0 || n == 0x1680 ||
    (0x2000 ≤ n && n ≤ 0x200B) || n == 0x202F || n == 0x205F || n == 0x3000 || n == 0xFEFF

/-- What stands between two tokens. -/
structure Gap where
  /-- Whether a line ends in it. -/
  lineBreak : Bool := false
  /-- The last documentation block that belongs to the following token. -/
  doc : Option String := none
  /-- The texts of the line comments, the last one first. -/
  lineComments : List String := []
  deriving Inhabited, Repr

/-- Notes a block comment with the given text, reversed. A block that starts with a second star is a
documentation block; it belongs to the token before it when that token keeps comments and no line
has ended since. -/
def Gap.addBlock (gap : Gap) (keeps : Bool) (text : List Char) : Gap :=
  let text := text.reverse
  let owned := keeps && !gap.lineBreak
  let doc :=
    if !owned && Text.startsWith ['*'] text then some (String.ofList ("/*".toList ++ text ++ "*/".toList))
    else gap.doc
  { gap with doc, lineBreak := gap.lineBreak || text.any isLineEnd }

/-- Notes a line comment with the given text, reversed. -/
def Gap.addLine (gap : Gap) (text : List Char) : Gap :=
  { gap with lineComments := String.ofList text.reverse :: gap.lineComments }

/-- Where in a gap the reader is. Texts of comments are kept reversed. -/
inductive GapMode where
  | between
  | line (text : List Char)
  | block (text : List Char)

/-- Reads a gap: white space and comments up to the next token. Nothing is returned for a comment
that does not end. -/
def readGap (keeps : Bool) : GapMode → Gap → List Char → Option (Gap × List Char)
  | .between, gap, '/' :: '/' :: cs => readGap keeps (.line []) gap cs
  | .between, gap, '/' :: '*' :: cs => readGap keeps (.block []) gap cs
  | .between, gap, c :: cs =>
    if isLineEnd c then readGap keeps .between { gap with lineBreak := true } cs
    else if isSpace c then readGap keeps .between gap cs
    else some (gap, c :: cs)
  | .between, gap, [] => some (gap, [])
  | .line text, gap, c :: cs =>
    if isLineEnd c then readGap keeps .between { gap.addLine text with lineBreak := true } cs
    else readGap keeps (.line (c :: text)) gap cs
  | .line text, gap, [] => some (gap.addLine text, [])
  | .block text, gap, '*' :: '/' :: cs => readGap keeps .between (gap.addBlock keeps text) cs
  | .block text, gap, c :: cs => readGap keeps (.block (c :: text)) gap cs
  | .block _, _, [] => none

/-! ## Names -/

/-- Whether a character is a hexadecimal digit. -/
def isHexDigit (c : Char) : Bool :=
  c.isDigit || ('a' ≤ c && c ≤ 'f') || ('A' ≤ c && c ≤ 'F')

/-- The value of a hexadecimal digit. -/
def hexValue (c : Char) : Nat :=
  if c.isDigit then c.toNat - '0'.toNat
  else if 'a' ≤ c then c.toNat - 'a'.toNat + 10
  else c.toNat - 'A'.toNat + 10

/-- The number that hexadecimal digits denote. -/
def hexNumber (digits : List Char) : Nat :=
  digits.foldl (fun n c => 16 * n + hexValue c) 0

/-- The code point that the text after `\u` denotes, and what follows. -/
def codePoint? (cs : List Char) : Option (Nat × List Char) :=
  match cs with
  | '\x7b' :: cs =>
    let digits := cs.takeWhile isHexDigit
    match cs.dropWhile isHexDigit with
    | '\x7d' :: rest =>
      if digits.isEmpty || hexNumber digits > 0x10FFFF then none else some (hexNumber digits, rest)
    | _ => none
  | a :: b :: c :: d :: rest =>
    if [a, b, c, d].all isHexDigit then some (hexNumber [a, b, c, d], rest) else none
  | _ => none

/-- A name that has been read: its characters reversed, and whether one was written with an
escape. -/
structure NameText where
  chars : List Char := []
  escaped : Bool := false

/-- Reads as many name characters as there are. The first argument bounds the number of characters;
an escape that is no name character makes the name invalid. -/
def readName : Nat → NameText → List Char → Option (NameText × List Char)
  | 0, name, cs => some (name, cs)
  | n + 1, name, cs =>
    let accepts := if name.chars.isEmpty then isNameStart else isNamePart
    match cs with
    | '\\' :: 'u' :: rest =>
      match codePoint? rest with
      | some (code, rest) =>
        if accepts (Char.ofNat code) then
          readName n { chars := Char.ofNat code :: name.chars, escaped := true } rest
        else none
      | none => none
    | '\\' :: _ => none
    | c :: rest => if accepts c then readName n { name with chars := c :: name.chars } rest else some (name, cs)
    | [] => some (name, cs)

/-- Reads a name that must not be empty. -/
def readName? (cs : List Char) : Option (String × Bool × List Char) :=
  match readName cs.length {} cs with
  | some (name, rest) =>
    if name.chars.isEmpty then none
    else some (String.ofList name.chars.reverse, name.escaped, rest)
  | none => none

/-- The token of a word that is written as `text`. A keyword that is never a name must not be
written with an escape; another keyword that is keeps its spelling as a name, and one whose first
character is escaped is a mere name. Outside of modules fewer words are reserved. -/
def wordKind? (inModule : Bool) (text : List Char) (name : String) (escaped : Bool) :
    Option TokenKind := do
  if !isKeyword name then return .word (← Word.of? name) none
  else if !escaped then return .word (← Word.of? name) (some name)
  else if Text.startsWith ['\\'] text then return .word (← Word.of? name) none
  else if reservedWords.contains name || (inModule && moduleReservedWords.contains name) then none
  else return .word (← Word.of? (String.ofList text)) (some name)

/-! ## Numbers -/

/-- Whether every underscore stands before a digit. -/
def separatorsFit : List Char → Bool
  | [] => true
  | ['_'] => false
  | '_' :: '_' :: _ => false
  | _ :: cs => separatorsFit cs

/-- Reads at least one digit; there may be an underscore before each of them. -/
def digits? (isDigit : Char → Bool) (cs : List Char) : Option (List Char) :=
  let text := cs.takeWhile fun c => isDigit c || c == '_'
  if text.isEmpty || !separatorsFit text then none else some (cs.drop text.length)

/-- Reads digits if there are some. -/
def optionalDigits? (cs : List Char) : Option (List Char) :=
  match cs with
  | c :: _ => if c.isDigit || c == '_' then digits? Char.isDigit cs else some cs
  | [] => some cs

/-- Reads the exponent of a number if there is one. -/
def exponent? (cs : List Char) : Option (List Char) :=
  match cs with
  | e :: sign :: rest =>
    if e == 'e' || e == 'E' then
      if sign == '+' || sign == '-' then digits? Char.isDigit rest else digits? Char.isDigit (sign :: rest)
    else some cs
  | [e] => if e == 'e' || e == 'E' then none else some cs
  | [] => some cs

/-- The number with the digits of a base, which may be a large integer. -/
def basedNumber? (isDigit : Char → Bool) (cs : List Char) : Option (TokenKind × List Char) :=
  match digits? isDigit cs with
  | some ('n' :: rest) => some (.bigint, rest)
  | some rest => some (.number, rest)
  | none => none

/-- Reads what follows the whole digits of a decimal number. -/
def decimalTail? (cs : List Char) : Option (TokenKind × List Char) :=
  match cs with
  | 'n' :: rest => some (.bigint, rest)
  | '.' :: rest => do some (.number, ← exponent? (← optionalDigits? rest))
  | _ => do some (.number, ← exponent? cs)

/-- Reads a number that starts with a superfluous zero. Without larger digits it is an octal one,
which has no fraction. -/
def paddedNumber? (cs : List Char) : Option (TokenKind × List Char) :=
  if (cs.takeWhile Char.isDigit).all fun c => c ≤ '7' then some (.number, cs.dropWhile Char.isDigit)
  else decimalTail? (cs.dropWhile Char.isDigit)

/-- Reads a number. In a module a zero is not followed by further digits; a number is not followed by
a name unless it is a large integer. -/
def number? (inModule : Bool) (cs : List Char) : Option (TokenKind × List Char) := do
  let (kind, rest) ← match cs with
    | '0' :: 'x' :: rest => basedNumber? isHexDigit rest
    | '0' :: 'X' :: rest => basedNumber? isHexDigit rest
    | '0' :: 'o' :: rest => basedNumber? (fun c => '0' ≤ c && c ≤ '7') rest
    | '0' :: 'O' :: rest => basedNumber? (fun c => '0' ≤ c && c ≤ '7') rest
    | '0' :: 'b' :: rest => basedNumber? (fun c => c == '0' || c == '1') rest
    | '0' :: 'B' :: rest => basedNumber? (fun c => c == '0' || c == '1') rest
    | '0' :: c :: rest =>
      if c == '_' then none
      else if c.isDigit then if inModule then none else paddedNumber? (c :: rest)
      else decimalTail? (c :: rest)
    | '.' :: rest => do some (.number, ← exponent? (← digits? Char.isDigit rest))
    | _ => do decimalTail? (← digits? Char.isDigit cs)
  match rest with
  | c :: _ => if kind == .number && isNameStart c then none else some (kind, rest)
  | [] => some (kind, rest)

/-! ## Quoted text -/

/-- Whether a character ends a line that quoted text or a regular expression stands on. -/
def isNewLine (c : Char) : Bool :=
  c == '\n' || c == '\r'

/-- Reads what an escape in quoted text consists of after its backslash. In a module there are no
octal ones. -/
def escape? (inModule : Bool) (cs : List Char) : Option (List Char) :=
  match cs with
  | [] => none
  | '\r' :: '\n' :: rest => some rest
  | 'u' :: rest => (codePoint? rest).map (·.2)
  | 'x' :: a :: b :: rest => if isHexDigit a && isHexDigit b then some rest else none
  | 'x' :: _ => none
  | '0' :: c :: rest => if inModule && '0' ≤ c && c ≤ '7' then none else some (c :: rest)
  | c :: rest => if inModule && '1' ≤ c && c ≤ '7' then none else some rest

/-- Reads quoted text after its opening quote, up to the closing one. The first argument bounds the
number of characters. -/
def quoted? (inModule : Bool) (quote : Char) : Nat → List Char → Option (List Char)
  | 0, _ => none
  | n + 1, cs =>
    match cs with
    | [] => none
    | '\\' :: rest => (escape? inModule rest).bind (quoted? inModule quote n)
    | c :: rest =>
      if c == quote then some rest
      else if isNewLine c then none
      else quoted? inModule quote n rest

/-- Reads a regular expression after its opening slash, up to the closing one; `inClass` says
whether the reader is between square brackets. -/
def regexBody? : Bool → List Char → Option (List Char)
  | _, [] => none
  | inClass, '\\' :: c :: cs => if isNewLine c then none else regexBody? inClass cs
  | inClass, c :: cs =>
    if isNewLine c then none
    else if c == '/' && !inClass then some cs
    else regexBody? (if c == '[' then true else if c == ']' then false else inClass) cs

/-- The flags after a regular expression, and what follows them. -/
def regexFlags? (cs : List Char) : Option (List Char × List Char) :=
  if (cs.head?.map isNameStart).getD false then
    (readName? cs).map fun (name, _, rest) => (name.toList, rest)
  else some ([], cs)

/-- Whether the flags of a regular expression are known and none is repeated. -/
def regexFlagsFit (flags : List Char) : Bool :=
  flags.all (fun c => "dgimsuvy".toList.contains c) && flags.Nodup

/-! ## Tokens -/

/-- The punctuators, longer ones before their beginnings. -/
def punctuators : List String :=
  ["...", "===", "!==", "**=", "<<=", "&&=", "||=", "??=",
   "=>", "==", "!=", "++", "--", "+=", "-=", "**", "*=", "/=", "%=", "<<", "<=", "&&", "||", "&=",
   "|=", "^=", "??",
   "\x7b", "\x7d", "(", ")", "[", "]", ";", ",", "~", ":", "@", ".", "?", "=", "!", "+", "-", "*",
   "/", "%", "<", ">", "&", "|", "^", "`"]

/-- The first of some spellings that a text starts with, and what follows it. -/
def firstSpelling? (cs : List Char) : List String → Option (String × List Char)
  | [] => none
  | spelling :: spellings =>
    match Text.after? spelling.toList cs with
    | some rest => some (spelling, rest)
    | none => firstSpelling? cs spellings

/-- Reads a punctuator. An access that may find nothing is no conditional with a fraction, and the
comment marks of markup pages are no punctuators. -/
def punctuator? (lineStart : Bool) (cs : List Char) : Option (TokenKind × List Char) :=
  match cs with
  | '<' :: '!' :: '-' :: '-' :: _ => none
  | '?' :: '.' :: c :: rest =>
    if c.isDigit then some (.punctuator "?", '.' :: c :: rest) else some (.punctuator "?.", c :: rest)
  | ['?', '.'] => some (.punctuator "?.", [])
  | _ =>
    if lineStart && Text.startsWith "-->".toList cs then none
    else (firstSpelling? cs punctuators).map fun (text, rest) => (.punctuator text, rest)

/-- Reads what a token consists of. `first` says whether it is the first one of a file, which is not
yet known to be a module, and `lineStart` whether only white space stands before it on its line. -/
def tokenKind? (first lineStart : Bool) (cs : List Char) : Option (TokenKind × List Char) :=
  match cs with
  | [] => some (.ending, [])
  | '\'' :: rest => (quoted? (!first) '\'' cs.length rest).map fun rest => (.string, rest)
  | '"' :: rest => (quoted? (!first) '"' cs.length rest).map fun rest => (.string, rest)
  | '#' :: rest => (readName? rest).map fun (_, _, rest) => (.privateName, rest)
  | c :: rest =>
    if c.isDigit || (c == '.' && (rest.head?.map Char.isDigit).getD false) then number? (!first) cs
    else if isNameStart c || c == '\\' then
      match readName? cs with
      | some (name, escaped, rest) =>
        let text := if escaped then cs.take (cs.length - rest.length) else []
        (wordKind? (!first) text name escaped).map fun kind => (kind, rest)
      | none => none
    else punctuator? lineStart cs

/-- Passes over what the comment marks of markup pages open, and the gap after it. The first argument
bounds the number of such marks. -/
def skipMarkup : Nat → Gap → List Char → Option (Gap × List Char)
  | 0, gap, cs => some (gap, cs)
  | n + 1, gap, cs =>
    match firstSpelling? cs ["<!--", "-->"] with
    | some (_, rest) => do
      let (gap, cs) ← readGap false (.line []) gap rest
      skipMarkup n gap cs
    | none => some (gap, cs)

/-- Reads the next token and what stands before it. `keeps` says whether the token before keeps
comments, and `first` whether there is no such token. Before the first token the comment marks of
markup pages open a line comment, which is then a part of that token. -/
def Token.read (keeps first : Bool) (cs : List Char) : Token × List String :=
  match readGap keeps .between {} cs with
  | none => ({ kind := .invalid, start := cs, after := cs }, [])
  | some (gap, start) =>
    match if first then skipMarkup start.length gap start else some (gap, start) with
    | none => ({ kind := .invalid, start, after := start }, [])
    | some (gap, cs) =>
      let (kind, after) := (tokenKind? first (first || gap.lineBreak) cs).getD (.invalid, cs)
      ({ kind, start, after, lineBreak := gap.lineBreak, doc := gap.doc }, gap.lineComments)

/-- The regular expression that a token with a slash opens. -/
def Token.asRegex? (token : Token) : Option Token :=
  match token.start with
  | '/' :: cs =>
    match (regexBody? false cs).bind regexFlags? with
    | some (flags, rest) =>
      if regexFlagsFit flags then some { token with kind := .regex, after := rest } else none
    | none => none
  | _ => none

/-- A token without all but its first character. -/
def Token.firstChar (token : Token) : Token :=
  match token.start with
  | c :: rest => { token with kind := .punctuator (String.singleton c), after := rest }
  | [] => token

/-! ## Templates and elements -/

/-- Where a piece of template text ends. -/
inductive TemplateEnd where
  /-- The template ends. -/
  | closed
  /-- An expression follows. -/
  | substitution
  deriving DecidableEq, Inhabited, Repr

/-- A piece of template text. -/
structure TemplatePart where
  /-- Where it ends. -/
  ending : TemplateEnd
  /-- Whether every escape in it has a meaning. -/
  meaningful : Bool
  /-- The text after it. -/
  after : List Char

/-- Reads a piece of template text. The second argument bounds the number of characters. -/
def templatePart (meaningful : Bool) : Nat → List Char → Option TemplatePart
  | 0, _ => none
  | n + 1, cs =>
    match cs with
    | [] => none
    | '`' :: rest => some { ending := .closed, meaningful, after := rest }
    | '$' :: '\x7b' :: rest => some { ending := .substitution, meaningful, after := rest }
    | '\\' :: rest =>
      match escape? true rest with
      | some rest => templatePart meaningful n rest
      | none => templatePart false n (rest.drop 1)
    | _ :: rest => templatePart meaningful n rest

/-- Whether a character ends the text between the tags of an element. -/
def endsElementText (c : Char) : Bool :=
  c == '<' || c == '\x7b'

/-- The text between the tags of an element, and what follows. A closing bracket of a tag or an
expression cannot stand in it. -/
def elementText? (cs : List Char) : Option (List Char × List Char) :=
  let text := cs.takeWhile fun c => !endsElementText c
  if text.contains '>' || text.contains '\x7d' then none
  else some (text, cs.dropWhile fun c => !endsElementText c)

/-- The name of an element or attribute, which may hold dashes. -/
def readElementName? (cs : List Char) : Option (List Char) :=
  match cs with
  | c :: rest => if isNameStart c then some (rest.dropWhile fun c => isNamePart c || c == '-') else none
  | [] => none

/-- Reads the value of an attribute after its opening quote; there are no escapes in it. -/
def attributeText? (quote : Char) (cs : List Char) : Option (List Char) :=
  match cs.dropWhile (· != quote) with
  | _ :: rest => some rest
  | [] => none

/-- What is left of a text without its byte order mark. -/
def skipByteOrderMark (cs : List Char) : List Char :=
  match cs with
  | c :: rest => if c.toNat == 0xFEFF then rest else cs
  | [] => []

/-- What is left of a text after a first line that names an interpreter, if it has one. -/
def interpreterLine? (cs : List Char) : Option (List Char) :=
  match cs with
  | '#' :: '!' :: rest => some (rest.dropWhile fun c => !isLineEnd c)
  | _ => none

end DocBlock.Source
