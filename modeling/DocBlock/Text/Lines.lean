import DocBlock.Text.Blank

/-! # Lines, joins and replacements

Texts are taken apart and put together as lists of characters. A line ends at a line feed; a
carriage return directly before that line feed belongs to the line end, and a text that ends in a
line feed has no empty last line. -/

namespace DocBlock.Text

/-- What follows `pattern` in a text that starts with it. -/
def after? : List Char → List Char → Option (List Char)
  | [], cs => some cs
  | _ :: _, [] => none
  | p :: ps, c :: cs => if p = c then after? ps cs else none

/-- Whether a text starts with `pattern`. -/
def startsWith (pattern cs : List Char) : Bool :=
  (after? pattern cs).isSome

/-- What stands before `pattern` in a text that ends with it. -/
def before? (pattern cs : List Char) : Option (List Char) :=
  (after? pattern.reverse cs.reverse).map List.reverse

/-- Whether a text ends with `pattern`. -/
def endsWith (pattern cs : List Char) : Bool :=
  (before? pattern cs).isSome

/-- The text before and the text after the first occurrence of `pattern`. -/
def cutAt? (pattern : List Char) : List Char → Option (List Char × List Char)
  | [] => (after? pattern []).map fun rest => ([], rest)
  | c :: cs =>
    match after? pattern (c :: cs) with
    | some rest => some ([], rest)
    | none => (cutAt? pattern cs).map fun (before, rest) => (c :: before, rest)

/-- Puts a character in front of the first of several pieces. -/
def consFirst (c : Char) : List (List Char) → List (List Char)
  | [] => [[c]]
  | piece :: pieces => (c :: piece) :: pieces

/-- The pieces between the occurrences of a separator character; always at least one. -/
def splitOn (separator : Char) : List Char → List (List Char)
  | [] => [[]]
  | c :: cs => if c = separator then [] :: splitOn separator cs else consFirst c (splitOn separator cs)

/-- A line without the carriage return that ends it. -/
def dropReturn (line : List Char) : List Char :=
  if line.getLast? = some '\r' then line.dropLast else line

/-- The lines among the pieces between line feeds: the last piece is a line only when it is not
empty, and only a piece that a line feed ends gives up its carriage return. -/
def linesOfPieces : List (List Char) → List (List Char)
  | [] => []
  | [last] => if last.isEmpty then [] else [last]
  | piece :: next :: pieces => dropReturn piece :: linesOfPieces (next :: pieces)

/-- The lines of a text. -/
def lines (cs : List Char) : List (List Char) :=
  linesOfPieces (splitOn '\n' cs)

/-- Several texts with a separator between each two. -/
def join (separator : List Char) : List (List Char) → List Char
  | [] => []
  | [piece] => piece
  | piece :: next :: pieces => piece ++ separator ++ join separator (next :: pieces)

/-- Replaces every occurrence of `pattern` from left to right; `skip` counts the characters of the
occurrence that is being left out. -/
def replaceFrom (pattern new : List Char) : Nat → List Char → List Char
  | _, [] => []
  | skip + 1, _ :: cs => replaceFrom pattern new skip cs
  | 0, c :: cs =>
    if startsWith pattern (c :: cs) then new ++ replaceFrom pattern new (pattern.length - 1) cs
    else c :: replaceFrom pattern new 0 cs

/-- A text with every occurrence of `pattern` replaced by `new`. -/
def replaceAll (pattern new cs : List Char) : List Char :=
  replaceFrom pattern new 0 cs

end DocBlock.Text

/-- Several strings with a separator between each two. -/
def DocBlock.Text.joinStrings (separator : String) : List String → String
  | [] => ""
  | [piece] => piece
  | piece :: next :: pieces => piece ++ separator ++ DocBlock.Text.joinStrings separator (next :: pieces)
