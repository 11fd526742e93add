import DocBlock.Files.Tree
import DocBlock.Glob.Pattern

/-! # The paths that a pattern matches

A pattern is taken apart at its slashes, and its components are matched against the names in a file
system, one directory after the other and in the order of the names. A component without wild
characters is looked up and not searched for. -/

namespace DocBlock.Glob

open Files

/-- A path that was met, and whether it leads to a directory. -/
structure Candidate where
  path : Path
  isDirectory : Bool
  deriving Inhabited, Repr

/-- The candidate for a path. -/
def Candidate.at (t : FileTree) (path : Path) : Candidate :=
  { path, isDirectory := t.isDirectory path }

/-- Whether a candidate is the working directory itself, which is not written in front of the paths
below it. -/
def Candidate.isHere (c : Candidate) : Bool :=
  c.path.parts == [.here]

/-- A path below a candidate. -/
def Candidate.below (c : Candidate) (name : String) : Path :=
  if c.isHere then ⟨name⟩ else c.path.join name

/-- The paths that a candidate gives when it matches all components. -/
def Candidate.accepted (onlyDirectories : Bool) (c : Candidate) : List Path :=
  if onlyDirectories && !c.isDirectory then [] else [c.path]

mutual

/-- The paths below a candidate that match the components. The first argument bounds the number of
steps. -/
def search (t : FileTree) (onlyDirectories : Bool) : Nat → Candidate → List Pattern → List Path
  | 0, _, _ => []
  | _, _, [] => []
  | n + 1, c, pattern :: patterns =>
    let enter (next : Candidate) : List Path :=
      if patterns.isEmpty then next.accepted onlyDirectories
      else search t onlyDirectories n next patterns
    match pattern.literal? with
    | some name =>
      let next := Candidate.at t (c.below name)
      let found := if name == "." || name == ".." then c.isDirectory
        else t.pathExists next.path || (t.linkStatus next.path).isOk
      if found then enter next else []
    | none =>
      if c.isDirectory then
        let dots := if pattern.tokens.head? == some (.literal '.') then
            [".", ".."].filter pattern.fits else []
        dots.reverse.flatMap (fun name => enter (Candidate.at t (c.path.join name))) ++
          (t.list c.path).flatMap fun name =>
            visit t onlyDirectories n (Candidate.at t (c.below name)) (pattern :: patterns)
      else []

/-- The paths at and below a candidate whose name is matched by the first component. -/
def visit (t : FileTree) (onlyDirectories : Bool) : Nat → Candidate → List Pattern → List Path
  | 0, _, _ => []
  | _, _, [] => []
  | n + 1, c, pattern :: patterns =>
    if pattern.isRecursive then
      -- Several components of this kind in a row are the same as one.
      let others := patterns.dropWhile Pattern.isRecursive
      let own := if others.isEmpty then (if c.isDirectory then [c.path] else [])
        else visit t onlyDirectories n c others
      if c.isDirectory then own ++ search t onlyDirectories n c (pattern :: others) else own
    else
      match c.path.fileName? with
      | none => []
      | some name =>
        if pattern.fits name then
          if patterns.isEmpty then c.accepted onlyDirectories
          else search t onlyDirectories n c patterns
        else []

end

/-- The texts between the slashes of a pattern; a slash at the end opens no further one. -/
def componentTexts (cs : List Char) : List String :=
  let pieces := Text.splitOn '/' cs
  let pieces := if pieces.getLast? == some [] then pieces.dropLast else pieces
  pieces.map String.ofList

/-- How many steps a search can take at most: on every way down each link is followed no more often
than the file system allows. -/
def searchBound (t : FileTree) (patterns : List Pattern) : Nat :=
  2 * ((t.entries.length + 1) * (FileTree.maxLinks + 1) + patterns.length + 2)

/-- The paths that a pattern matches. The search starts at the top of the file system when the pattern
starts with a slash. -/
def expand (t : FileTree) (pattern : Path) : Except PatternError (List Path) := do
  let _ ← Pattern.ofString pattern.text
  let cs := pattern.text.toList
  let patterns ← (componentTexts (if pattern.isAbsolute then cs.drop 1 else cs)).mapM Pattern.ofString
  let start : Path := if pattern.isAbsolute then ⟨"/"⟩ else ⟨"."⟩
  let onlyDirectories := cs.getLast? == some '/'
  return search t onlyDirectories (searchBound t patterns) (Candidate.at t start) patterns

end DocBlock.Glob
