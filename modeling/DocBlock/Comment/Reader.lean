import DocBlock.Comment.Basic
import DocBlock.Text.Alphabetic

/-! # Reading hand-written comments

Reading never fails. The content of the first `/** … */` block is taken line by line: the margin
goes, a line is cut before each tag that opens in its middle, the lines before the first tag are
the description, and a tag takes the lines up to the next one. -/

namespace DocBlock.Comment

/-- What stands in the first block of a text, when there is a block and it is not blank. -/
def blockContent? (raw : List Char) : Option (List Char) := do
  let (_, body) ← Text.cutAt? "/**".toList raw
  let (content, _) ← Text.cutAt? "*/".toList body
  if Text.isAllBlank content then none else some content

/-- A line without its margin and without trailing white space. The margin is white space, one
star and one space after the star. -/
def dropMargin (line : List Char) : List Char :=
  Text.trimEnd <|
    match Text.trimStart line with
    | '*' :: ' ' :: rest => rest
    | '*' :: rest => rest
    | rest => rest

/-! ## Tags in the middle of a line -/

/-- The brace depth after a character; a closing brace too many does not count. -/
def braceDepth (depth : Nat) (c : Char) : Nat :=
  if c = '{' then depth + 1 else if c = '}' then depth - 1 else depth

/-- Whether a text starts with an alphabetic character. -/
def startsAlphabetic (cs : List Char) : Bool :=
  cs.head?.any Text.isAlphabetic

/-- Cuts the rest of a line before each tag that opens in it. A tag opens at an `@` outside braces,
after white space and before an alphabetic character, but not at the very start of the line. -/
def cutTags (start : Bool) (depth : Nat) (previous : Char) : List Char → List (List Char)
  | [] => [[]]
  | c :: cs =>
    let pieces := Text.consFirst c (cutTags false (braceDepth depth c) c cs)
    if c = '@' && depth = 0 && !start && Text.isBlank previous && startsAlphabetic cs then
      [] :: pieces
    else pieces

/-- Trims the end of every piece but the last. -/
def trimPieces : List (List Char) → List (List Char)
  | [] => []
  | [last] => [last]
  | piece :: next :: pieces => Text.trimEnd piece :: trimPieces (next :: pieces)

/-- The pieces of a line, each with at most one tag, at its start. -/
def splitInlineTags (line : List Char) : List (List Char) :=
  trimPieces (cutTags true 0 ' ' line)

/-- The lines of a block, without margins and with each tag on a line of its own. -/
def contentLines (content : List Char) : List (List Char) :=
  (Text.lines content).flatMap fun line => splitInlineTags (dropMargin line)

/-! ## Tags -/

/-- What follows the `@` of a line that opens a tag. -/
def tagHeader? (line : List Char) : Option (List Char) :=
  match Text.trimStart line with
  | '@' :: rest => if rest.head?.any fun c => !Text.isBlank c then some rest else none
  | _ => none

/-- The text up to the brace that closes one opened before it, and the text after that brace;
`depth` counts the braces opened since. -/
def closeBrace? (depth : Nat) : List Char → Option (List Char × List Char)
  | [] => none
  | c :: cs =>
    if c = '}' && depth = 0 then some ([], cs)
    else (closeBrace? (braceDepth depth c) cs).map fun (inside, rest) => (c :: inside, rest)

/-- The type at the start of a text and what follows it. A text that does not start with a brace,
or never closes it, has no type. -/
def takeType (cs : List Char) : Option String × List Char :=
  match cs with
  | '{' :: rest =>
    match closeBrace? 0 rest with
    | some (type, rest) => (some (String.ofList type), Text.trimStart rest)
    | none => (none, cs)
  | _ => (none, cs)

/-- The characters up to the first white space, and the rest. -/
def takeWord (cs : List Char) : List Char × List Char :=
  (cs.takeWhile fun c => !Text.isBlank c, cs.dropWhile fun c => !Text.isBlank c)

/-- The description of a tag: the rest of its line and the lines after it, without white space at
the end. A blank description counts as none. -/
def tagDescription? (first : List Char) (others : List (List Char)) : Option String :=
  let text := Text.trimEnd (Text.join ['\n'] (first :: others))
  if Text.isAllBlank text then none else some (String.ofList text)

/-- The tag opened by a line, given what follows its `@` and the lines up to the next tag. -/
def readTag (header : List Char) (others : List (List Char)) : Tag :=
  let (kind, rest) := takeWord header
  let (type, rest) := takeType (Text.trimStart rest)
  let (name, rest) := takeWord rest
  { kind := String.ofList kind
    name := if name.isEmpty then none else some (String.ofList name)
    type
    description := tagDescription? (Text.trim rest) others }

/-- The lines before the first tag, and each tag's header with the lines after it. -/
def sections : List (List Char) → List (List Char) × List (List Char × List (List Char))
  | [] => ([], [])
  | line :: rest =>
    let (prose, tags) := sections rest
    match tagHeader? line with
    | some header => ([], (header, prose) :: tags)
    | none => (line :: prose, tags)

/-- The comment described by the lines of a block. -/
def ofLines (lines : List (List Char)) : Comment :=
  let (prose, tags) := sections lines
  let description := Text.trim (Text.join ['\n'] prose)
  { description := if description.isEmpty then none else some (String.ofList description)
    tags := tags.map fun (header, others) => readTag header others }

/-- Reads the first block of a text. A text without a block reads as the empty comment. -/
def read (raw : List Char) : Comment :=
  match blockContent? raw with
  | none => empty
  | some content => ofLines (contentLines content)

/-- Reads the first block of a string. -/
def ofString (raw : String) : Comment :=
  read raw.toList

end DocBlock.Comment
