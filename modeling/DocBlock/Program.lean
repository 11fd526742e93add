import DocBlock.Source.Placing
import DocBlock.Source.Reader
import DocBlock.Synthesis.Kinds

/-! # Programs

A program is the source files of one run. The files that are well formed become declaration trees,
and type references reach what any of them declares; the others are kept as failures. -/

namespace DocBlock

/-- A source file. -/
structure SourceFile where
  /-- The path that the file is named by. -/
  path : String
  /-- What the file holds. -/
  text : String
  deriving DecidableEq, Inhabited, Repr

/-- The declaration tree of a source file. -/
def SourceFile.tree (file : SourceFile) : Except Error Tree :=
  let cs := file.text.toList
  match Source.ModuleForm.ofChars (Source.Dialect.ofFileName file.path) cs with
  | .ok form => .ok (form.toTree file.path)
  | .error fault =>
    let (line, column) := Source.lineAndColumn cs fault.rest
    .error (.malformed file.path line column)

/-- The source files of one run. -/
structure Program where
  /-- The trees of the files that are well formed, in order. -/
  units : List Tree := []
  /-- Why the other files have no tree, in order. -/
  failures : List Error := []
  deriving Inhabited

namespace Program

/-- Puts the outcome for one more file in front. -/
def cons (outcome : Except Error Tree) (program : Program) : Program :=
  match outcome with
  | .ok tree => { program with units := tree :: program.units }
  | .error error => { program with failures := error :: program.failures }

/-- The program of some outcomes. -/
def ofOutcomes (outcomes : List (Except Error Tree)) : Program :=
  outcomes.foldr cons {}

/-- The program of some source files. -/
def ofFiles (files : List SourceFile) : Program :=
  ofOutcomes (files.map SourceFile.tree)

/-- What type references can reach. -/
def table (program : Program) : SymbolTable :=
  .ofTrees program.units

/-- The documentation of one file of the program. -/
def document (program : Program) (tree : Tree) : Except Error String := do
  return (← tree.collect program.table).text

end Program

/-- The documentation of a source file on its own. -/
def SourceFile.document (file : SourceFile) : Except Error String := do
  let tree ← file.tree
  Program.document { units := [tree] } tree

end DocBlock
