import DocBlock.Comment.Printer

/-! # The entries of one file

The comments of one file are kept in the order in which they were added; an entry is named by its
position for good. Beside the entries stand two books about repeated declarations, both by owner
and name: how often a key has been counted, and which entry is canonical for a key. -/

namespace DocBlock

/-- What makes two declarations repetitions of each other: their owner and their name. -/
structure DeclKey where
  /-- The canonical name of the owner. -/
  owner : Option String
  /-- The name of the declaration. -/
  name : String
  deriving DecidableEq, Inhabited, Repr

/-- The comments of one file. -/
structure Collection where
  /-- The comments, oldest first. -/
  entries : List Comment := []
  /-- How often each key has been counted. -/
  sightings : List (DeclKey × Nat) := []
  /-- The canonical entry of each key. -/
  canonical : List (DeclKey × Nat) := []
  deriving Inhabited, Repr

namespace Collection

/-- How many entries there are, empty ones included. -/
def size (cs : Collection) : Nat :=
  cs.entries.length

/-- The entry at a position; the empty comment at a position that is not taken. -/
def get (cs : Collection) (i : Nat) : Comment :=
  cs.entries.getD i Comment.empty

/-- Adds an entry, whose position is the former size. -/
def push (cs : Collection) (c : Comment) : Collection :=
  { cs with entries := cs.entries ++ [c] }

/-- Changes the entry at a position. -/
def modify (cs : Collection) (i : Nat) (f : Comment → Comment) : Collection :=
  { cs with entries := cs.entries.modify i f }

/-- The first entry with a tag of the given kind and name, among those that belong to `parent` when
one is given. -/
def find? (cs : Collection) (kind name : String) (parent : Option String) : Option Nat :=
  cs.entries.findIdx? fun c =>
    c.hasTag kind (some name) && parent.all fun p => c.hasTag "memberof" (some p)

/-- Counts a sighting of a key. The first one has no number, the others are numbered from two. -/
def count (cs : Collection) (key : DeclKey) : Collection × Option Nat :=
  match cs.sightings.lookup key with
  | some n =>
    ({ cs with sightings := cs.sightings.map fun (k, m) => if k = key then (k, m + 1) else (k, m) },
      some (n + 1))
  | none => ({ cs with sightings := cs.sightings ++ [(key, 1)] }, none)

/-- The other entry that is canonical for a key. An entry that is the first to ask becomes canonical
itself. -/
def enroll (cs : Collection) (key : DeclKey) (i : Nat) : Collection × Option Nat :=
  match cs.canonical.lookup key with
  | some first => (cs, if first = i then none else some first)
  | none => ({ cs with canonical := cs.canonical ++ [(key, i)] }, none)

/-- Merges one entry into another one and empties it. An entry is not merged into itself. -/
def merge (cs : Collection) (source target : Nat) : Collection :=
  if source = target then cs
  else (cs.modify target (cs.get source).mergeInto).modify source fun _ => Comment.empty

/-- Whether a text starts with a blank line and one line feed more. -/
def startsGap : List Char → Bool
  | '\n' :: '\n' :: '\n' :: _ => true
  | _ => false

/-- Cuts every run of line feeds down to two. -/
def collapseGaps : List Char → List Char
  | [] => []
  | c :: cs => if startsGap (c :: cs) then collapseGaps cs else c :: collapseGaps cs

/-- The blocks of all entries that are not empty, a blank line between each two. -/
def render (cs : Collection) : List Char :=
  collapseGaps (Text.join "\n\n".toList ((cs.entries.filter fun c => !c.isEmpty).map Comment.render))

/-- The text of a collection as a string. -/
def text (cs : Collection) : String :=
  String.ofList cs.render

end Collection

end DocBlock
