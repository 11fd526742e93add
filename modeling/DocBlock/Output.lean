import DocBlock.Files.Tree
import DocBlock.Options
import DocBlock.Program

/-! # Writing documentation

The documentation of a program goes into one file for each source file, or into one file for all of
them. A source file whose documentation fails is noted and the others are still written. The first
file that cannot be written stops the writing; what was written before it stays. -/

namespace DocBlock

open Files (FileTree)

/-- What has been written, and what has not. -/
structure Summary where
  /-- The files that were written, in order. -/
  written : List Path := []
  /-- Why source files have no documentation, in order. -/
  failed : List Error := []
  deriving DecidableEq, Inhabited, Repr

namespace Summary

/-- Notes a file that was written. -/
def addWritten (s : Summary) (path : Path) : Summary :=
  { s with written := s.written ++ [path] }

/-- Notes why a source file has no documentation. -/
def addFailed (s : Summary) (error : Error) : Summary :=
  { s with failed := s.failed ++ [error] }

end Summary

/-- The state of the writing after some source files. -/
structure Writing where
  /-- What has been written up to there. -/
  summary : Summary := {}
  /-- The texts that go into one file together. -/
  combined : List String := []
  /-- The file system up to there. -/
  files : FileTree
  /-- The file that could not be written. -/
  stopped : Option Error := none
  deriving Inhabited

namespace Writing

/-- Writes a text to a file, with the directories above it. -/
def write (w : Writing) (path : Path) (text : String) : Writing :=
  match w.files.writeBelow path text with
  | .ok files => { w with files, summary := w.summary.addWritten path }
  | .error cause => { w with stopped := some (.inaccessible path.text cause) }

/-- Keeps a text for the file that all texts go into; an empty text is left out. -/
def keep (w : Writing) (text : String) : Writing :=
  if text.isEmpty then w else { w with combined := w.combined ++ [text] }

/-- Takes the documentation of one source file. Once stopped, nothing more is done. -/
def addUnit (program : Program) (options : Options) (w : Writing) (tree : Tree) : Writing :=
  if w.stopped.isSome then w
  else
    match program.document tree with
    | .error e => { w with summary := w.summary.addFailed e }
    | .ok text =>
      if options.outFile.isSome then w.keep text
      else w.write (options.outputPath ⟨tree.fileName⟩) text

/-- Writes the texts that go into one file together. -/
def finish (options : Options) (w : Writing) : Writing :=
  match options.outFile with
  | none => w
  | some file => w.write file (Text.joinStrings "\n\n" w.combined)

end Writing

/-- Writes the documentation of a program. -/
def Program.write (program : Program) (options : Options) (t : FileTree) : Writing :=
  (program.units.foldl (Writing.addUnit program options)
    { summary := { failed := program.failures }, files := t }).finish options

end DocBlock
