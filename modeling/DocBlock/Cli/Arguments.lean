import DocBlock.Path

/-! # Command lines

The arguments of a run are a command with its options, flags and files. They are read from left to
right. The value of an option is only checked when the next option begins or the arguments end, so a
flag that is not known is reported before a value that is not good. -/

namespace DocBlock.Cli

/-- Why arguments do not make up a command. -/
inductive UsageError where
  | invalidSubcommand
  | unknownArgument
  | missingRequiredArgument
  /-- A value is missing, or it is empty where a path is needed. -/
  | invalidValue
  /-- An option or flag is given twice. -/
  | argumentConflict
  /-- A flag is given with a value. -/
  | tooManyValues
  /-- Help is asked for. -/
  | displayHelp
  /-- The version is asked for. -/
  | displayVersion
  deriving DecidableEq, Inhabited, Repr

/-- The wording of an error. -/
def UsageError.message : UsageError → String
  | invalidSubcommand => "there is no such command"
  | unknownArgument => "an argument was not expected"
  | missingRequiredArgument => "an argument is missing"
  | invalidValue => "an option has no value"
  | argumentConflict => "an argument was given twice"
  | tooManyValues => "a flag was given a value"
  | displayHelp => "help was asked for"
  | displayVersion => "the version was asked for"

/-- The options that every documenting command has. -/
structure CommonOptions where
  /-- The version of the language, instead of the configured one. -/
  target : Option String := none
  /-- The kind of modules, instead of the configured one. -/
  module : Option String := none
  /-- Whether more is reported. -/
  verbose : Bool := false
  deriving DecidableEq, Inhabited, Repr

/-- A command. -/
inductive Command where
  /-- Prints the documentation of a file. -/
  | extract (file : Path) (common : CommonOptions)
  /-- Writes the documentation of files; without files, of those that the configuration names. -/
  | compile (files : List Path) (outDir outFile sourceRoot : Option Path) (common : CommonOptions)
  /-- Writes a configuration file. -/
  | init
  deriving DecidableEq, Inhabited, Repr

/-! ## What a command accepts -/

/-- How many files a command takes. -/
inductive FileCount where
  | none
  | one
  | many
  deriving DecidableEq, Inhabited, Repr

/-- What a command accepts. -/
structure Accepts where
  /-- How many files it takes. -/
  files : FileCount := .none
  /-- The options with a text. -/
  texts : List String := []
  /-- The options with a path. -/
  paths : List String := []
  /-- Whether more can be reported. -/
  verbose : Bool := false
  deriving Inhabited, Repr

/-- Whether an option is known. -/
def Accepts.knows (a : Accepts) (name : String) : Bool :=
  a.texts.contains name || a.paths.contains name

/-! ## Reading -/

/-- What has been read but not yet been checked. -/
inductive Pending where
  | nothing
  /-- An option, perhaps with its value. -/
  | option (name : String) (value : Option String)
  /-- Files in a row. -/
  | files (values : List String)
  deriving DecidableEq, Inhabited, Repr

/-- The arguments that have been read. -/
structure Reading where
  /-- What has not yet been checked. -/
  pending : Pending := .nothing
  /-- The options with their values. -/
  options : List (String × String) := []
  /-- The files. -/
  files : List String := []
  /-- Whether more is reported. -/
  verbose : Bool := false
  /-- Whether only files can follow. -/
  onlyFiles : Bool := false
  deriving Inhabited, Repr

/-- Checks what is pending. -/
def Reading.settle (a : Accepts) (r : Reading) : Except UsageError Reading :=
  match r.pending with
  | .nothing => .ok r
  | .option _ none => .error .invalidValue
  | .option name (some value) =>
    if r.options.any (·.1 == name) then .error .argumentConflict
    else if a.paths.contains name && value.isEmpty then .error .invalidValue
    else .ok { r with pending := .nothing, options := r.options ++ [(name, value)] }
  | .files values =>
    if values.any String.isEmpty then .error .invalidValue
    else .ok { r with pending := .nothing, files := r.files ++ values }

/-- Notes that more is to be reported. -/
def Reading.setVerbose (a : Accepts) (r : Reading) : Except UsageError Reading := do
  let r ← r.settle a
  if r.verbose then .error .argumentConflict else .ok { r with verbose := true }

/-- Reads a file, or fails when no further one is taken. -/
def Reading.addFile (a : Accepts) (r : Reading) (value : String) : Except UsageError Reading := do
  match a.files, r.pending with
  | .none, _ => .error .unknownArgument
  | .one, pending =>
    if !r.files.isEmpty || pending matches .files _ then .error .unknownArgument
    else
      let r ← r.settle a
      return { r with pending := .files [value] }
  | .many, .files values => return { r with pending := .files (values ++ [value]) }
  | .many, _ =>
    let r ← r.settle a
    return { r with pending := .files [value] }

/-- The name and the value of an argument such as `--name=value`. -/
def splitAssignment (cs : List Char) : String × Option String :=
  match cs.dropWhile (· != '=') with
  | _ :: value => (String.ofList (cs.takeWhile (· != '=')), some (String.ofList value))
  | [] => (String.ofList cs, none)

/-- Reads an argument that starts with two dashes. -/
def Reading.long (a : Accepts) (r : Reading) (cs : List Char) : Except UsageError Reading := do
  let (name, value) := splitAssignment cs
  if a.knows name then
    let r ← r.settle a
    match value with
    | some value => Reading.settle a { r with pending := .option name (some value) }
    | none => return { r with pending := .option name none }
  else if name == "help" || (a.verbose && name == "verbose") then
    if value.isSome then .error .tooManyValues
    else if name == "help" then
      let _ ← r.settle a
      .error .displayHelp
    else r.setVerbose a
  else .error .unknownArgument

/-- Reads an argument of one-letter flags after its dash. -/
def Reading.short (a : Accepts) (r : Reading) : List Char → Except UsageError Reading
  | [] => .ok r
  | c :: cs => do
    if c == 'h' then
      let _ ← r.settle a
      .error .displayHelp
    else if a.verbose && c == 'v' then
      let r ← r.setVerbose a
      r.short a cs
    else .error .unknownArgument

/-- Reads one argument of a command. -/
def Reading.argument (a : Accepts) (r : Reading) (argument : String) : Except UsageError Reading :=
  if r.onlyFiles then r.addFile a argument
  else
    match argument.toList with
    | ['-', '-'] => .ok { r with onlyFiles := true }
    | '-' :: '-' :: cs => r.long a cs
    | '-' :: c :: cs => r.short a (c :: cs)
    | _ =>
      match r.pending with
      | .option name none => .ok { r with pending := .option name (some argument) }
      | _ => r.addFile a argument

/-- Reads the arguments of a command. -/
def Reading.ofArguments (a : Accepts) (arguments : List String) : Except UsageError Reading := do
  let r : Reading ← arguments.foldlM (Reading.argument a) {}
  r.settle a

/-- The value of an option. -/
def Reading.option? (r : Reading) (name : String) : Option String :=
  (r.options.find? (·.1 == name)).map (·.2)

/-- The options that every documenting command has. -/
def Reading.common (r : Reading) : CommonOptions where
  target := r.option? "target"
  module := r.option? "module"
  verbose := r.verbose

/-! ## Commands -/

/-- The names of the commands. -/
def commandNames : List String :=
  ["extract", "compile", "init", "help"]

/-- Reads the arguments of the command that prints the documentation of a file. -/
def extractArguments (arguments : List String) : Except UsageError Command := do
  let r ← Reading.ofArguments
    { files := .one, texts := ["target", "module"], verbose := true } arguments
  match r.files with
  | file :: _ => return .extract ⟨file⟩ r.common
  | [] => .error .missingRequiredArgument

/-- Reads the arguments of the command that writes documentation. -/
def compileArguments (arguments : List String) : Except UsageError Command := do
  let r ← Reading.ofArguments
    { files := .many, texts := ["target", "module"],
      paths := ["out-dir", "out-file", "source-root"], verbose := true } arguments
  let path (name : String) := (r.option? name).map Path.mk
  return .compile (r.files.map Path.mk) (path "out-dir") (path "out-file") (path "source-root") r.common

/-- Reads what follows the command that explains commands. -/
def helpArguments : List String → UsageError
  | [] => .displayHelp
  | [name] => if commandNames.contains name then .displayHelp else .invalidSubcommand
  | _ => .invalidSubcommand

/-- Reads an argument before the command. -/
def leadingFlag (cs : List Char) : UsageError :=
  match cs with
  | '-' :: '-' :: cs =>
    let (name, value) := splitAssignment cs
    if name == "help" || name == "version" then
      if value.isSome then .tooManyValues
      else if name == "help" then .displayHelp
      else .displayVersion
    else .unknownArgument
  | '-' :: 'h' :: _ => .displayHelp
  | '-' :: 'V' :: _ => .displayVersion
  | _ => .unknownArgument

/-- Reads a command line. Without arguments there is no command. -/
def Command.ofArguments : List String → Except UsageError (Option Command)
  | [] => .ok none
  | ["--"] => .ok none
  | "--" :: name :: _ =>
    .error (if commandNames.contains name then .unknownArgument else .invalidSubcommand)
  | "extract" :: arguments => (extractArguments arguments).map some
  | "compile" :: arguments => (compileArguments arguments).map some
  | "init" :: arguments => do
    let _ ← Reading.ofArguments {} arguments
    return some .init
  | "help" :: arguments => .error (helpArguments arguments)
  | argument :: _ =>
    match argument.toList with
    | '-' :: c :: cs => .error (leadingFlag ('-' :: c :: cs))
    | _ => .error .invalidSubcommand

end DocBlock.Cli
