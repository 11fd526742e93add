import DocBlock.Text.Lines

/-! # Paths

A path is kept as it is written, and two paths are compared by their components: a doubled slash, a
slash at the end and a single dot inside a path mean nothing, while a dot at the beginning of a
relative path is a component of its own. -/

namespace DocBlock

/-- A path of a file or directory, as written. -/
structure Path where
  text : String
  deriving DecidableEq, Inhabited, Repr

/-- A component of a path. -/
inductive PathPart where
  /-- The top of the file system. -/
  | root
  /-- The directory itself, at the beginning of a relative path. -/
  | here
  /-- The directory above. -/
  | up
  | name (text : String)
  deriving DecidableEq, Inhabited, Repr

namespace Path

/-! ## Components -/

/-- The texts between the slashes. -/
def pieces (p : Path) : List (List Char) :=
  Text.splitOn '/' p.text.toList

/-- The component that a piece after the first one stands for, if it means something. -/
def part? (piece : List Char) : Option PathPart :=
  if piece.isEmpty || piece = ['.'] then none
  else if piece = ['.', '.'] then some .up
  else some (.name (String.ofList piece))

/-- The components of a path. -/
def parts (p : Path) : List PathPart :=
  match p.pieces with
  | [] => []
  | first :: others =>
    if first.isEmpty then
      if others.isEmpty then [] else .root :: others.filterMap part?
    else if first = ['.'] then .here :: others.filterMap part?
    else (first :: others).filterMap part?

/-- Whether a path starts at the top of the file system. -/
def isAbsolute (p : Path) : Bool :=
  Text.startsWith ['/'] p.text.toList

/-- Whether the components of one path begin with all those of another. -/
def isBelow (p base : Path) : Bool :=
  base.parts.isPrefixOf p.parts

/-! ## Order -/

/-- Compares two components: the top comes first, then the two kinds of dots, then names by their
characters. -/
def compareParts : PathPart → PathPart → Ordering
  | .name a, .name b => compare a b
  | a, b => compare (rank a) (rank b)
where
  rank : PathPart → Nat
    | .root => 0
    | .here => 1
    | .up => 2
    | .name _ => 3

/-- Compares two lists of components from the left. -/
def compareLists : List PathPart → List PathPart → Ordering
  | [], [] => .eq
  | [], _ :: _ => .lt
  | _ :: _, [] => .gt
  | a :: as, b :: bs => (compareParts a b).then (compareLists as bs)

/-- Compares two paths by their components. -/
def compare (p q : Path) : Ordering :=
  compareLists p.parts q.parts

/-- Puts a path into a sorted list, unless one with the same components is there already. -/
def insertSorted (p : Path) : List Path → List Path
  | [] => [p]
  | q :: qs =>
    match p.compare q with
    | .lt => p :: q :: qs
    | .eq => q :: qs
    | .gt => q :: insertSorted p qs

/-! ## Putting together and taking apart -/

/-- A path below a directory; an absolute path stays as it is. -/
def join (dir : Path) (rest : String) : Path :=
  if Text.startsWith ['/'] rest.toList || dir.text.isEmpty then ⟨rest⟩
  else if Text.endsWith ['/'] dir.text.toList then ⟨dir.text ++ rest⟩
  else ⟨dir.text ++ "/" ++ rest⟩

/-- The pieces without those at the end that mean nothing. The first piece always means
something. -/
def significant : List (List Char) → List (List Char)
  | [] => []
  | first :: others =>
    first :: (others.reverse.dropWhile fun piece => (part? piece).isNone).reverse

/-- The path without its last component, if it has one that is not the top. -/
def parent? (p : Path) : Option Path :=
  let pieces := significant p.pieces
  if pieces = [[]] then none
  else
    match significant pieces.dropLast with
    | [[]] => some ⟨"/"⟩
    | rest => some ⟨String.ofList (Text.join ['/'] rest)⟩

/-- The last component, if it is a name. -/
def fileName? (p : Path) : Option String :=
  match p.parts.getLast? with
  | some (.name text) => some text
  | _ => none

/-- The path with its last component replaced by a name; a path that does not end in a name gets it
as a further component. -/
def withFileName (p : Path) (name : String) : Path :=
  if p.fileName?.isSome then (p.parent?.getD ⟨""⟩).join name else p.join name

/-- What follows the last dot of the file name. A dot at the beginning of the name does not count. -/
def extension? (p : Path) : Option String := do
  let name := (← p.fileName?).toList
  if !name.contains '.' then none
  else
    let extension := (name.reverse.takeWhile (· != '.')).reverse
    if extension.length + 1 = name.length then none else some (String.ofList extension)

/-- A path, its parent, the parent of that one, and so on. The second argument bounds their
number. -/
def upwardsN : Nat → Path → List Path
  | 0, p => [p]
  | n + 1, p =>
    match p.parent? with
    | some parent => p :: upwardsN n parent
    | none => [p]

/-- A path and the paths above it, innermost first. -/
def upwards (p : Path) : List Path :=
  upwardsN p.pieces.length p

end Path

end DocBlock
