import DocBlock.Error
import DocBlock.Path

/-! # File systems

A file system is a table of what stands at each place. A place is the list of names on the way from
the top; the top itself is a directory that is always there. A path is followed from a directory,
name by name, through symbolic links; how many links may be followed on the way is limited. -/

namespace DocBlock.Files

/-- A place in a file system: the names on the way from the top. -/
abbrev Place := List String

/-- The path from the top to a place. -/
def pathTo (place : Place) : Path :=
  ⟨"/" ++ Text.joinStrings "/" place⟩

/-- What a file holds. -/
inductive Content where
  | text (text : String)
  /-- Bytes that are no text. -/
  | binary
  deriving DecidableEq, Inhabited, Repr

/-- What stands at a place. -/
inductive Entry where
  | file (content : Content)
  | directory
  /-- A symbolic link. -/
  | link (target : Path)
  deriving DecidableEq, Inhabited, Repr

/-- A file system, as seen from a working directory. -/
structure FileTree where
  /-- What stands where; the top is not listed. -/
  entries : List (Place × Entry) := []
  /-- The directory that relative paths start from. -/
  current : Place := []
  deriving Inhabited, Repr

namespace FileTree

/-! ## Entries -/

/-- What stands at a place. -/
def entry? (t : FileTree) (place : Place) : Option Entry :=
  if place.isEmpty then some .directory
  else (t.entries.find? fun (p, _) => p == place).map (·.2)

/-- Puts something at a place, in place of what was there. -/
def set (t : FileTree) (place : Place) (entry : Entry) : FileTree :=
  if t.entries.any fun (p, _) => p == place then
    { t with entries := t.entries.map fun (p, e) => if p == place then (p, entry) else (p, e) }
  else { t with entries := t.entries ++ [(place, entry)] }

/-- The names in a directory. -/
def names (t : FileTree) (dir : Place) : List String :=
  t.entries.filterMap fun (p, _) => if p.dropLast == dir then p.getLast? else none

/-- What stands in a later file system and not in an earlier one. -/
def changes (before after : FileTree) : List (Place × Entry) :=
  after.entries.filter fun (place, entry) => before.entry? place != some entry

/-! ## Following paths -/

/-- Where a path leads to. -/
inductive Found where
  /-- Something that is there. -/
  | there (place : Place)
  /-- A place in a directory where nothing is. -/
  | missing (place : Place)
  deriving DecidableEq, Inhabited, Repr

/-- How many bytes a name has at most. -/
def maxNameBytes : Nat := 255

/-- How many bytes a path has at most. -/
def maxPathBytes : Nat := 4095

/-- Follows the pieces of a path from a directory. Links on the way are followed by the third
argument, which gets the directory they stand in, or the top, and the pieces that are left; a link
at the end is only followed when `last` says so. -/
def followPieces (t : FileTree) (last : Bool)
    (followLink : Place → List (List Char) → Except SystemError Found) :
    Place → List (List Char) → Except SystemError Found
  | dir, [] => .ok (.there dir)
  | dir, piece :: rest =>
    match Path.part? piece with
    | none => followPieces t last followLink dir rest
    | some .up => followPieces t last followLink dir.dropLast rest
    | some _ =>
      let name := String.ofList piece
      let place := dir ++ [name]
      if maxNameBytes < name.utf8ByteSize then .error .nameTooLong
      else match t.entry? place with
      | none => if rest.isEmpty then .ok (.missing place) else .error .notFound
      | some .directory => followPieces t last followLink place rest
      | some (.file _) => if rest.isEmpty then .ok (.there place) else .error .notDirectory
      | some (.link target) =>
        if rest.isEmpty && !last then .ok (.there place)
        else if target.isAbsolute then followLink [] (target.pieces ++ rest)
        else followLink dir (target.pieces ++ rest)

/-- Follows the pieces of a path through at most as many links as the third argument says. -/
def follow (t : FileTree) (last : Bool) :
    Nat → Place → List (List Char) → Except SystemError Found
  | 0 => followPieces t last fun _ _ => .error .tooManyLinks
  | n + 1 => followPieces t last (follow t last n)

/-- How many links may be followed on the way. -/
def maxLinks : Nat := 40

/-- Where a path leads to; a link at the end is only followed when `last` says so. -/
def locate (t : FileTree) (last : Bool) (p : Path) : Except SystemError Found :=
  if p.text.isEmpty then .error .notFound
  else if p.text.toList.contains '\x00' then .error .nameWithNul
  else if maxPathBytes < p.text.utf8ByteSize then .error .nameTooLong
  else t.follow last maxLinks (if p.isAbsolute then [] else t.current) p.pieces

/-- What a path leads to; a link at the end is only followed when `last` says so. -/
def lookup (t : FileTree) (last : Bool) (p : Path) : Except SystemError (Place × Entry) := do
  match ← t.locate last p with
  | .missing _ => .error .notFound
  | .there place =>
    match t.entry? place with
    | some entry => .ok (place, entry)
    | none => .error .notFound

/-- What stands at the end of a path, after all links. -/
def status (t : FileTree) (p : Path) : Except SystemError Entry := do
  return (← t.lookup true p).2

/-- What stands at the end of a path, which may be a link. -/
def linkStatus (t : FileTree) (p : Path) : Except SystemError Entry := do
  return (← t.lookup false p).2

/-- Whether a path leads to something. -/
def pathExists (t : FileTree) (p : Path) : Bool :=
  (t.status p).isOk

/-- Whether a path leads to a directory. -/
def isDirectory (t : FileTree) (p : Path) : Bool :=
  match t.status p with
  | .ok .directory => true
  | _ => false

/-- Whether a path leads to a file. -/
def isFile (t : FileTree) (p : Path) : Bool :=
  match t.status p with
  | .ok (.file _) => true
  | _ => false

/-- Puts a name where it belongs among names in order. -/
def insertName (name : String) : List String → List String
  | [] => [name]
  | other :: names => if name ≤ other then name :: other :: names else other :: insertName name names

/-- The names in the directory that a path leads to, in order. -/
def list (t : FileTree) (p : Path) : List String :=
  match t.lookup true p with
  | .ok (place, .directory) => (t.names place).foldr insertName []
  | _ => []

/-! ## Reading and writing -/

/-- The text of the file that a path leads to. -/
def read (t : FileTree) (p : Path) : Except SystemError String := do
  match ← t.status p with
  | .file (.text text) => .ok text
  | .file .binary => .error .notText
  | .directory => .error .isDirectory
  | .link _ => .error .tooManyLinks

/-- Writes a text to the file that a path leads to; the file need not be there, but its directory
does. -/
def write (t : FileTree) (p : Path) (text : String) : Except SystemError FileTree := do
  match ← t.locate true p with
  | .missing place => .ok (t.set place (.file (.text text)))
  | .there place =>
    match t.entry? place with
    | some (.file _) => .ok (t.set place (.file (.text text)))
    | _ => .error .isDirectory

/-- Makes a directory where nothing is yet. -/
def makeDirectory (t : FileTree) (p : Path) : Except SystemError FileTree := do
  match ← t.locate false p with
  | .missing place => .ok (t.set place .directory)
  | .there _ => .error .alreadyExists

/-- Makes sure that a path leads to a directory. -/
def ensureDirectory (t : FileTree) (p : Path) : Except SystemError FileTree :=
  if p.text.isEmpty || t.isDirectory p then .ok t else t.makeDirectory p

/-- Makes sure that a path and all paths above it lead to directories. -/
def ensureDirectories (t : FileTree) (p : Path) : Except SystemError FileTree :=
  p.upwards.reverse.foldlM ensureDirectory t

/-- Writes a text to a file and makes the directories above it. -/
def writeBelow (t : FileTree) (p : Path) (text : String) : Except SystemError FileTree := do
  let t ← match p.parent? with
    | some parent => t.ensureDirectories parent
    | none => .ok t
  t.write p text

end FileTree

end DocBlock.Files
