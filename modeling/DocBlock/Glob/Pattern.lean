import DocBlock.Text.Lines

/-! # Patterns of paths

A pattern matches a whole text. A question mark stands for any character, a star for any text, and
brackets for one of some characters. Two stars make up a whole component and stand for any number of
components. In a text that is matched as a whole, stars and question marks also match slashes. -/

namespace DocBlock.Glob

/-- Characters between brackets. -/
inductive CharClass where
  | single (c : Char)
  | range (first last : Char)
  deriving DecidableEq, Inhabited, Repr

/-- Whether a class holds a character. -/
def CharClass.contains : CharClass → Char → Bool
  | single c, x => c == x
  | range first last, x => first ≤ x && x ≤ last

/-- A part of a pattern. -/
inductive Token where
  | literal (c : Char)
  /-- Any character. -/
  | anyChar
  /-- Any text. -/
  | anyText
  /-- Any number of components. -/
  | anyComponents
  /-- One of some characters. -/
  | oneOf (classes : List CharClass)
  /-- A character that is none of some. -/
  | noneOf (classes : List CharClass)
  deriving DecidableEq, Inhabited, Repr

/-- Why a text is no pattern. -/
inductive PatternFault where
  /-- More than two stars in a row. -/
  | tooManyStars
  /-- Two stars that are not a whole component. -/
  | partialComponent
  /-- Brackets without characters between them. -/
  | badClass
  deriving DecidableEq, Inhabited, Repr

/-- Why a text is no pattern, and near which of its characters. -/
structure PatternError where
  position : Nat
  fault : PatternFault
  deriving DecidableEq, Inhabited, Repr

/-- The wording of an error. -/
def PatternError.message (e : PatternError) : String :=
  let reason := match e.fault with
    | .tooManyStars => "wildcards are either regular `*` or recursive `**`"
    | .partialComponent => "recursive wildcards must form a single path component"
    | .badClass => "invalid range pattern"
  "Pattern syntax error near position " ++ toString e.position ++ ": " ++ reason

/-! ## Reading -/

/-- The classes that the characters between brackets stand for. -/
def charClasses : List Char → List CharClass
  | first :: '-' :: last :: rest => .range first last :: charClasses rest
  | c :: rest => .single c :: charClasses rest
  | [] => []

/-- Reads brackets after the opening one: the characters between them, of which there is at least
one, and what follows. A closing bracket may be the first of these characters. -/
def classChars? : List Char → Option (List Char × List Char)
  | [] => none
  | first :: rest =>
    match rest.dropWhile (· != ']') with
    | _ :: after => some (first :: rest.takeWhile (· != ']'), after)
    | [] => none

/-- Reads brackets after the opening one. -/
def classToken? : List Char → Option (Token × List Char)
  | '!' :: rest => (classChars? rest).map fun (chars, after) => (.noneOf (charClasses chars), after)
  | cs => (classChars? cs).map fun (chars, after) => (.oneOf (charClasses chars), after)

/-- Reads a pattern from a position on. The character before the position tells where a component
begins, and the first argument bounds the number of steps. -/
def readTokens : Nat → Nat → Option Char → List Char → Except PatternError (List Token)
  | 0, _, _, _ => .ok []
  | _, _, _, [] => .ok []
  | n + 1, position, before, c :: rest =>
    if c == '?' then
      return .anyChar :: (← readTokens n (position + 1) (some c) rest)
    else if c == '*' then
      let stars := ((c :: rest).takeWhile (· == '*')).length
      let after := rest.drop (stars - 1)
      if stars > 2 then .error ⟨position + 2, .tooManyStars⟩
      else if stars < 2 then
        return .anyText :: (← readTokens n (position + 1) (some c) after)
      else if before.isSome && before != some '/' then .error ⟨position - 1, .partialComponent⟩
      else
        match after with
        | [] => .ok [.anyComponents]
        | next :: after =>
          if next == '/' then
            return .anyComponents :: (← readTokens n (position + 3) (some next) after)
          else .error ⟨position + 2, .partialComponent⟩
    else if c == '[' then
      match classToken? rest with
      | some (token, after) =>
        return token :: (← readTokens n (position + 1 + (rest.length - after.length)) (some ']') after)
      | none => .error ⟨position, .badClass⟩
    else
      return .literal c :: (← readTokens n (position + 1) (some c) rest)

/-- A pattern of paths. -/
structure Pattern where
  tokens : List Token
  deriving DecidableEq, Inhabited, Repr

/-- Reads a pattern. -/
def Pattern.ofString (s : String) : Except PatternError Pattern := do
  return ⟨← readTokens s.length 0 none s.toList⟩

/-! ## Matching -/

/-- A text and all that is left of it when characters are taken away at the beginning. -/
def suffixes : List Char → List (List Char)
  | [] => [[]]
  | c :: cs => (c :: cs) :: suffixes cs

/-- What is left of a text after each of its slashes. -/
def suffixesAfterSlash : List Char → List (List Char)
  | [] => []
  | c :: cs => if c == '/' then cs :: suffixesAfterSlash cs else suffixesAfterSlash cs

/-- Whether a token that stands for one character stands for the given one. -/
def Token.fits : Token → Char → Bool
  | literal c, x => c == x
  | anyChar, _ => true
  | oneOf classes, x => classes.any (·.contains x)
  | noneOf classes, x => !classes.any (·.contains x)
  | anyText, _ => false
  | anyComponents, _ => false

/-- Whether tokens match a whole text. -/
def matchTokens : List Token → List Char → Bool
  | [], cs => cs.isEmpty
  | .anyText :: tokens, cs => (suffixes cs).any (matchTokens tokens)
  | .anyComponents :: tokens, cs =>
    matchTokens tokens cs || (suffixesAfterSlash cs).any (matchTokens tokens) || matchTokens tokens []
  | _ :: _, [] => false
  | token :: tokens, c :: cs => token.fits c && matchTokens tokens cs

/-- The character that a token stands for, if it is only one. -/
def Token.literalChar? : Token → Option Char
  | literal c => some c
  | _ => none

namespace Pattern

/-- Whether a pattern matches a whole text. -/
def fits (p : Pattern) (s : String) : Bool :=
  matchTokens p.tokens s.toList

/-- Whether a pattern stands for any number of components. -/
def isRecursive (p : Pattern) : Bool :=
  p.tokens.contains .anyComponents

/-- The text of a pattern that only matches one text. -/
def literal? (p : Pattern) : Option String :=
  (p.tokens.mapM Token.literalChar?).map String.ofList

/-- Whether a text stands for a pattern and not for one path: it has a star or question mark. -/
def isWild (s : String) : Bool :=
  s.toList.contains '*' || s.toList.contains '?'

end Pattern

end DocBlock.Glob
