/-! # Tags

A tag is one structured line of a documentation comment, `@kind {type} name description`. Only the
kind is always there. -/

namespace DocBlock

/-- One tag of a documentation comment. -/
structure Tag where
  /-- The keyword after the `@`. -/
  kind : String
  /-- What the tag is about: a parameter, an owner, a declared name. -/
  name : Option String := none
  /-- The text between the braces. -/
  type : Option String := none
  /-- The prose, which may run over several lines. -/
  description : Option String := none
  deriving DecidableEq, Inhabited, Repr

namespace Tag

/-- A tag that has a kind and perhaps a name, and nothing else. -/
def named (kind : String) (name : Option String) : Tag :=
  { kind, name }

/-- Whether the tag answers a look-up. A look-up without a name is answered by every tag of the
kind. -/
def answers (kind : String) (name : Option String) (tag : Tag) : Bool :=
  tag.kind == kind && (name.isNone || tag.name == name)

end Tag

end DocBlock
