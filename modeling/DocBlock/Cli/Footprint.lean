import DocBlock.Cli.Run

/-! # What a command looks at

The paths that a command may read. A run on a file system that agrees with the real one on these
paths prints what a run on the real one would. -/

namespace DocBlock.Cli

open Files (FileTree)

/-- Paths that are looked at. -/
structure Footprint where
  /-- What stands at these paths. -/
  files : List Path := []
  /-- All that stands at and below these paths. -/
  trees : List Path := []
  deriving Inhabited, Repr

/-- The paths where a configuration, or the top of a repository, may stand. -/
def configFootprint (dir : Path) : List Path :=
  dir.upwards.flatMap fun d => [d.join Config.fileName, d.join Config.repositoryMark]

/-- Whether a piece of a path is to be searched for and not looked up. -/
def isSearched (piece : List Char) : Bool :=
  piece.any fun c => c == '*' || c == '?' || c == '['

/-- The directory where the search for a pattern starts: the pieces before the first one that is
searched for. -/
def searchStart (p : Path) : Path :=
  match p.pieces.takeWhile fun piece => !isSearched piece with
  | [] => ⟨"."⟩
  | [[]] => ⟨"/"⟩
  | pieces => ⟨String.ofList (Text.join ['/'] pieces)⟩

/-- The paths at and below which a configuration looks for source files. -/
def searchFootprint (config : Config) (sourceRoot : Option Path) : List Path :=
  let base := sourceRoot.getD ⟨config.sourceRoot⟩
  if config.includes.isEmpty then [base]
  else config.includes.map fun s => searchStart (base.join s)

/-- The paths that a command may read, once its configuration is known. -/
def Command.footprint (config : Config) : Command → Footprint
  | extract file _ => { files := [file] }
  | compile files outDir outFile sourceRoot _ =>
    let options := outputOptions config outDir outFile
    { files := files ++ options.outDir.toList ++ options.outFile.toList
      trees := if files.isEmpty then searchFootprint config sourceRoot else [] }
  | init => { files := [⟨Config.fileName⟩] }

end DocBlock.Cli
