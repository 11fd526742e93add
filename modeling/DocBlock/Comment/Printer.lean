import DocBlock.Comment.Basic

/-! # Writing comments

A comment is written as one block: `/**`, the lines of the description, the tags and ` */`, each
line but the first and the last behind the margin ` * `. A blank line is written as a bare ` *`. An
empty comment is written as nothing. -/

namespace DocBlock

namespace Comment

/-- A line of the block after its first one. -/
def continuation (line : List Char) : List Char :=
  let line := Text.trimEnd line
  if line.isEmpty then "\n *".toList else "\n * ".toList ++ line

end Comment

namespace Tag

/-- The description after the head of the tag: its first line on the same line, the others as
lines of their own. -/
def renderDescription (description : List Char) : List Char :=
  match Text.lines description with
  | [] => []
  | first :: others =>
    let first := Text.trim first
    (if first.isEmpty then [] else ' ' :: first) ++ others.flatMap Comment.continuation

/-- The text of a tag, without the line feed before it. -/
def render (tag : Tag) : List Char :=
  " * @".toList ++ tag.kind.toList ++
    (tag.type.elim [] fun type => " \x7b".toList ++ type.toList ++ "\x7d".toList) ++
    (tag.name.elim [] fun name => if name.isEmpty then [] else ' ' :: name.toList) ++
    tag.description.elim [] fun description => renderDescription description.toList

end Tag

namespace Comment

/-- The block of a comment. -/
def render (c : Comment) : List Char :=
  if c.isEmpty then []
  else
    "/**".toList ++
      (c.description.elim [] fun d =>
        (Text.lines (Text.trim d.toList)).flatMap continuation) ++
      c.tags.flatMap (fun tag => '\n' :: tag.render) ++
      "\n */".toList

/-- The block of a comment as a string. -/
def text (c : Comment) : String :=
  String.ofList c.render

end Comment

end DocBlock
