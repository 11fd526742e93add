import DocBlock.Comment.Tag
import DocBlock.Text.Lines

/-! # Documentation comments

A comment is a description and an ordered list of tags. Tags are looked up by kind and, when the
look-up gives one, by name; a look-up that finds nothing may append the tag instead. Positions of
tags never change: a comment only grows at its end. -/

namespace DocBlock

/-- A documentation comment. -/
structure Comment where
  /-- The prose before the first tag. -/
  description : Option String := none
  /-- The tags, in the order in which they are written. -/
  tags : List Tag := []
  deriving DecidableEq, Inhabited, Repr

namespace Comment

/-- The comment without description and tags. -/
def empty : Comment := {}

/-- Whether there is nothing to write: no tags and no description but white space. -/
def isEmpty (c : Comment) : Bool :=
  c.description.all (fun d => Text.isAllBlank d.toList) && c.tags.isEmpty

/-! ## Looking tags up -/

/-- The position of the first tag that answers a look-up. -/
def position? (c : Comment) (kind : String) (name : Option String) : Option Nat :=
  c.tags.findIdx? (Tag.answers kind name)

/-- The first tag that answers a look-up. -/
def tag? (c : Comment) (kind : String) (name : Option String) : Option Tag :=
  c.tags.find? (Tag.answers kind name)

/-- Whether some tag answers a look-up. -/
def hasTag (c : Comment) (kind : String) (name : Option String) : Bool :=
  c.tags.any (Tag.answers kind name)

/-! ## Changing tags -/

/-- Appends a tag. -/
def append (c : Comment) (tag : Tag) : Comment :=
  { c with tags := c.tags ++ [tag] }

/-- Changes the tag at a position. -/
def modifyAt (c : Comment) (i : Nat) (f : Tag → Tag) : Comment :=
  { c with tags := c.tags.modify i f }

/-- The comment and the position at which a look-up is answered; the tag is appended first when no
tag answers. -/
def obtain (c : Comment) (kind : String) (name : Option String) : Comment × Nat :=
  match c.position? kind name with
  | some i => (c, i)
  | none => (c.append (Tag.named kind name), c.tags.length)

/-- Changes the tag that answers a look-up, appended first when there is none. -/
def put (c : Comment) (kind : String) (name : Option String) (f : Tag → Tag) : Comment :=
  let (c, i) := c.obtain kind name
  c.modifyAt i f

/-! ## Parameters

A hand-written comment may decorate the name of a parameter: `...name` for one that repeats,
`[name]` or `[name=value]` for one that may be left out, `[...name]` for both. -/

/-- The spellings under which a parameter is looked for, in the order in which they are tried. -/
def paramSpellings (name : String) (repeatable optional : Bool) : List String :=
  [name] ++ (if repeatable && optional then ["[..." ++ name ++ "]"] else []) ++
    (if repeatable then ["..." ++ name] else []) ++ (if optional then ["[" ++ name ++ "]"] else [])

/-- Whether a tag documents an optional parameter together with its default value. -/
def isDefaultedParam (name : String) (tag : Tag) : Bool :=
  tag.kind == "param" &&
    tag.name.any fun written => Text.startsWith ("[" ++ name ++ "=").toList written.toList

/-- The position of the tag that documents a parameter. -/
def paramPosition? (c : Comment) (name : String) (repeatable optional : Bool) : Option Nat :=
  match (paramSpellings name repeatable optional).findSome? fun s => c.position? "param" (some s) with
  | some i => some i
  | none => if optional then c.tags.findIdx? (isDefaultedParam name) else none

/-- The comment and the position of the tag that documents a parameter, appended first when there
is none. -/
def obtainParam (c : Comment) (name : String) (repeatable optional : Bool) : Comment × Nat :=
  match c.paramPosition? name repeatable optional with
  | some i => (c, i)
  | none => (c.append (Tag.named "param" (some name)), c.tags.length)

/-- Changes the tag that documents a parameter, appended first when there is none. -/
def putParam (c : Comment) (name : String) (repeatable optional : Bool) (f : Tag → Tag) : Comment :=
  let (c, i) := c.obtainParam name repeatable optional
  c.modifyAt i f

/-! ## Merging -/

/-- The description of two comments merged: the second one's after a blank line. An empty
description counts as none. -/
def mergeDescription (into source : Option String) : Option String :=
  match source with
  | none => into
  | some text =>
    if text.isEmpty then into
    else
      match into with
      | some existing => if existing.isEmpty then some text else some (existing ++ "\n\n" ++ text)
      | none => some text

/-- A tag with the type and the description of another one where that one has them. -/
def overwrite (source target : Tag) : Tag :=
  { target with
    type := source.type.or target.type
    description := source.description.or target.description }

/-- Merges `source` into `target`: the description is appended after a blank line, and each tag of
the source is looked up in the target by kind and name and written over the tag found. -/
def mergeInto (source target : Comment) : Comment :=
  source.tags.foldl (fun c tag => c.put tag.kind tag.name (overwrite tag))
    { target with description := mergeDescription target.description source.description }

end Comment

end DocBlock
