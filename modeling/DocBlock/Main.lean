import DocBlock.Cli.Footprint

/-! # The program

The file system is read as far as the command may look at it, the command is run on what was read,
and the changes are carried out. All decisions are made by `Cli.run`. -/

namespace DocBlock

open Files

/-- What a file on disk holds. A file that cannot be read counts as one without text. -/
def contentOnDisk (p : Path) : IO Content := do
  try
    match String.fromUTF8? (← IO.FS.readBinFile p.text) with
    | some text => return .text text
    | none => return .binary
  catch _ => return .binary

/-- Where a link on disk leads to; a link that leads nowhere keeps leading nowhere. -/
def linkOnDisk (p : Path) : IO Path := do
  try
    return ⟨(← IO.FS.realPath p.text).toString⟩
  catch _ => return ⟨"nowhere/"⟩

/-- What stands at a path on disk. -/
def entryOnDisk (p : Path) : IO (Option Entry) := do
  try
    match (← ((← IO.currentDir) / p.text).symlinkMetadata).type with
    | .dir => return some .directory
    | .symlink => return some (.link (← linkOnDisk p))
    | _ => return some (.file (← contentOnDisk p))
  catch _ => return none

/-- Adds what stands at a path whose directory is known. -/
def addStep (t : FileTree) (p : Path) : IO FileTree := do
  match t.locate false p with
  | .ok (.missing place) => return (← entryOnDisk p).elim t (t.set place)
  | _ => return t

/-- Adds what stands at a path and on the way there. -/
def addPath (t : FileTree) (p : Path) : IO FileTree := do
  let steps := p.upwards.reverse.filter fun q => !q.text.isEmpty
  steps.foldlM (fun t q => do
    let t ← addStep t q
    match t.linkStatus q with
    | .ok (.link target) => target.upwards.reverse.foldlM addStep t
    | _ => return t) t

/-- The names in a directory on disk. -/
def namesOnDisk (p : Path) : IO (List String) := do
  try
    return ((← ((← IO.currentDir) / p.text).readDir).map (·.fileName)).toList
  catch _ => return []

/-- Adds all that stands at and below a path, through links too. A directory is entered once. -/
partial def addTree (state : FileTree × List Place) (p : Path) : IO (FileTree × List Place) := do
  let t ← addPath state.1 p
  match t.lookup true p with
  | .ok (place, .directory) =>
    if state.2.contains place then return (t, state.2)
    else
      (← namesOnDisk p).foldlM (fun state name => addTree state (p.join name)) (t, place :: state.2)
  | _ => return (t, state.2)

/-- The file system on disk, as far as a command looks at it. -/
def readDisk (command : Cli.Command) : IO FileTree := do
  let cwd : Path := ⟨(← IO.currentDir).toString⟩
  let current := cwd.parts.filterMap fun
    | .name text => some text
    | _ => none
  let t ← addPath { current } cwd
  let t ← (Cli.configFootprint cwd).foldlM addPath t
  let footprint := command.footprint ((Config.load t cwd).toOption.getD {})
  let t ← footprint.files.foldlM addPath t
  return (← footprint.trees.foldlM addTree (t, [])).1

/-- Carries out one change on disk. -/
def writeDisk : Place × Entry → IO Unit
  | (place, .directory) => IO.FS.createDirAll (pathTo place).text
  | (place, .file (.text text)) => IO.FS.writeFile (pathTo place).text text
  | _ => return

/-- Runs a command on the file system on disk. -/
def runOnDisk (command : Option Cli.Command) : IO UInt32 := do
  let before ← command.elim (return {}) readDisk
  let outcome := Cli.run before command
  (before.changes outcome.files).forM writeDisk
  IO.eprint outcome.problems
  IO.print outcome.output
  if let some e := outcome.error then IO.eprintln ("Error: " ++ e.explanation)
  return outcome.status.code.toUInt32

/-- What happens instead of a run when the arguments make up no command. -/
def refuse (e : Cli.UsageError) : IO UInt32 := do
  match e with
  | .displayHelp =>
    IO.print Cli.helpText
    return 0
  | .displayVersion =>
    IO.print Cli.versionText
    return 0
  | e =>
    IO.eprintln ("error: " ++ e.message)
    return 2

end DocBlock

/-- Reads the command line and runs the command. -/
def main (arguments : List String) : IO UInt32 := do
  match DocBlock.Cli.Command.ofArguments arguments with
  | .ok command =>
    try
      DocBlock.runOnDisk command
    catch e =>
      IO.eprintln ("Error: " ++ toString e)
      return 2
  | .error e => DocBlock.refuse e
