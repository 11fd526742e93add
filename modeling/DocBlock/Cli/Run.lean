import DocBlock.Cli.Arguments
import DocBlock.Cli.Report
import DocBlock.Config.Search
import DocBlock.Files.Scan

/-! # Running commands

A command is run on a file system and gives what it prints, how it ends, and the file system
afterwards. A run that cannot go on keeps what it has written before. -/

namespace DocBlock.Cli

open Files (FileTree)

/-! ## Outcomes -/

/-- Why a run cannot go on. -/
inductive RunError where
  /-- There is no configuration to run with. -/
  | configuration (cause : Config.LoadError)
  /-- The file to be documented cannot be read. -/
  | unreadable (file : Path) (cause : Error)
  /-- Documentation cannot be written. -/
  | unwritable (cause : Error)
  /-- The configuration file cannot be written. -/
  | configurationUnwritable (cause : SystemError)
  deriving DecidableEq, Inhabited, Repr

/-- What could not be done. -/
def RunError.message : RunError → String
  | configuration cause => cause.message
  | unreadable file _ => "Failed to extract " ++ file.text
  | unwritable _ => "Failed to write documentation output"
  | configurationUnwritable _ => "Failed to write " ++ Config.fileName

/-- What could not be done, and why. -/
def RunError.explanation (e : RunError) : String :=
  match e with
  | configuration (.badPattern cause) => cause.message
  | configuration _ => e.message
  | unreadable _ cause => e.message ++ ": " ++ cause.message
  | unwritable cause => e.message ++ ": " ++ cause.message
  | configurationUnwritable cause => e.message ++ ": " ++ cause.message

/-- How a run ends. -/
inductive ExitStatus where
  | success
  /-- Some file has no documentation, or a configuration file is there already. -/
  | failure
  /-- The run could not go on. -/
  | broken
  deriving DecidableEq, Inhabited, Repr

/-- The number that a process ends with. -/
def ExitStatus.code : ExitStatus → Nat
  | success => 0
  | failure => 1
  | broken => 2

/-- What a run leaves behind. -/
structure Outcome where
  /-- How it ended. -/
  status : ExitStatus := .success
  /-- Why it could not go on. -/
  error : Option RunError := none
  /-- What it printed. -/
  output : String := ""
  /-- What it printed about problems. -/
  problems : String := ""
  /-- The file system afterwards. -/
  files : FileTree
  deriving Inhabited

/-- The outcome of a run that cannot go on. -/
def Outcome.broken (t : FileTree) (error : RunError) : Outcome :=
  { status := .broken, error := some error, files := t }

/-! ## Configuration -/

/-- The working directory as a path. -/
def workingDirectory (t : FileTree) : Path :=
  Files.pathTo t.current

/-- A configuration with what a command says instead. -/
def CommonOptions.override (common : CommonOptions) (config : Config) : Config :=
  { config with
    target := common.target.getD config.target
    module := common.module.getD config.module }

/-- The configuration of the working directory, with what a command says instead. -/
def resolveConfig (t : FileTree) (common : CommonOptions) : Except Config.LoadError Config :=
  (Config.load t (workingDirectory t)).map common.override

/-! ## Printing documentation -/

/-- The source file that a path leads to. -/
def sourceAt (t : FileTree) (path : Path) : Except Error SourceFile :=
  match t.read path with
  | .ok text => .ok ⟨path.text, text⟩
  | .error cause => .error (.inaccessible path.text cause)

/-- Prints the documentation of a file. -/
def extract (t : FileTree) (file : Path) (common : CommonOptions) : Outcome :=
  match resolveConfig t common with
  | .error cause => .broken t (.configuration cause)
  | .ok _ =>
    match sourceAt t file with
    | .error cause => .broken t (.unreadable file cause)
    | .ok source =>
      match source.document with
      | .ok text => { output := if text.isEmpty then "" else line text, files := t }
      | .error e => { status := .failure, problems := failureLine e.message, files := t }

/-! ## Writing documentation -/

/-- The source files that the configuration names, and what is reported on the way. -/
def discover (t : FileTree) (config : Config) (sourceRoot : Option Path) (verbose : Bool) :
    List Path × String :=
  let base := sourceRoot.getD ⟨config.sourceRoot⟩
  let found := Files.scan t base config.includes config.ignores config.ignoreTestFiles
  let warnings := String.join (found.warnings.map fun w => warningLine w.message)
  let skipped :=
    if found.skipped = 0 then ""
    else warningLine (toString found.skipped ++ " path(s) could not be accessed")
  (found.files, if verbose then warnings ++ skipped else "")

/-- The program of some files; a file that cannot be read is a failure. -/
def programAt (t : FileTree) (files : List Path) : Program :=
  .ofOutcomes (files.map fun path => (sourceAt t path).bind SourceFile.tree)

/-- The options of a configuration, with other places for the documentation. -/
def outputOptions (config : Config) (outDir outFile : Option Path) : Options :=
  { config.options with
    outDir := outDir.or config.options.outDir
    outFile := outFile.or config.options.outFile }

/-- Writes the documentation of some files. -/
def compileFiles (t : FileTree) (options : Options) (inputs : List Path) (verbose : Bool) : Outcome :=
  let w := (programAt t inputs).write options t
  match w.stopped with
  | some cause => .broken w.files (.unwritable cause)
  | none => {
      status := if w.summary.failed.isEmpty then .success else .failure
      output := summaryLines w.summary inputs.length verbose
      problems := problemLines w.summary
      files := w.files }

/-- Writes the documentation of the given files, or else of those that the configuration names. -/
def compile (t : FileTree) (files : List Path) (outDir outFile sourceRoot : Option Path)
    (common : CommonOptions) : Outcome :=
  match resolveConfig t common with
  | .error cause => .broken t (.configuration cause)
  | .ok config =>
    let (inputs, warnings) :=
      if files.isEmpty then discover t config sourceRoot common.verbose else (files, "")
    let outcome : Outcome :=
      if inputs.isEmpty then
        { problems := warningLine "no source files matched the configured includes", files := t }
      else compileFiles t (outputOptions config outDir outFile) inputs common.verbose
    { outcome with problems := warnings ++ outcome.problems }

/-! ## Writing a configuration -/

/-- Writes the usual configuration into the working directory, unless there is one. -/
def init (t : FileTree) : Outcome :=
  let path : Path := ⟨Config.fileName⟩
  if t.pathExists path then
    { status := .failure, problems := line ("Error: " ++ Config.fileName ++ " already exists"), files := t }
  else
    match t.write path ({} : Config).render with
    | .ok after => { output := successLine ("Created " ++ Config.fileName), files := after }
    | .error cause => .broken t (.configurationUnwritable cause)

/-! ## Commands -/

/-- What is printed when there is no command. -/
def helpText : String :=
  "Synthesizes JSDoc comment blocks from typed TypeScript declarations\n\n" ++
  "Usage: tsjsdoc [COMMAND]\n\n" ++
  "Commands:\n" ++
  "  extract  Print the synthesized JSDoc comments of one TypeScript file\n" ++
  "  compile  Write a .jsdoc file next to (or instead of) every TypeScript source\n" ++
  "  init     Initialize a new .tsjsdocrc.json configuration file\n" ++
  "  help     Print this message or the help of the given subcommand(s)\n\n" ++
  "Options:\n" ++
  "  -h, --help     Print help\n" ++
  "  -V, --version  Print version\n"

/-- What is printed when the version is asked for. -/
def versionText : String :=
  line "tsjsdoc 0.1.0"

/-- Runs a command on a file system. -/
def run (t : FileTree) : Option Command → Outcome
  | none => { output := helpText, files := t }
  | some (.extract file common) => extract t file common
  | some (.compile files outDir outFile sourceRoot common) =>
    compile t files outDir outFile sourceRoot common
  | some .init => init t

end DocBlock.Cli
