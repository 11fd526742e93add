import DocBlock.Glob.Expand

/-! # Finding source files

Source files are looked for at and below the paths that includes name, and left out where ignores
say so. An include or ignore with wild characters is a pattern, any other one is a path. -/

namespace DocBlock.Files

open Glob

/-- The patterns of the names of test files. -/
def testFilePatterns : List String :=
  ["**/*.test.tsx", "**/*.test.ts", "**/*.spec.tsx", "**/*.spec.ts", "**/__tests__/**"]

/-- What went wrong on the way. -/
inductive ScanWarning where
  | badIgnore (pattern : String) (error : PatternError)
  | badInclude (pattern : String) (error : PatternError)
  | missingInclude (path : Path)
  | inaccessible (path : Path) (cause : SystemError)
  deriving DecidableEq, Inhabited, Repr

/-- The wording of a warning. -/
def ScanWarning.message : ScanWarning → String
  | badIgnore pattern error => "Invalid ignore pattern '" ++ pattern ++ "': " ++ error.message
  | badInclude pattern error => "Invalid glob pattern '" ++ pattern ++ "': " ++ error.message
  | missingInclude path => "Include path does not exist: " ++ path.text
  | inaccessible path cause =>
    "Cannot access path: IO error for operation on " ++ path.text ++ ": " ++ cause.message

/-! ## Ignores -/

/-- What is left out. -/
structure Ignores where
  /-- What stands at and below these paths. -/
  paths : List Path := []
  /-- What these patterns match. -/
  patterns : List Pattern := []
  deriving Inhabited, Repr

/-- Reads ignores below a directory, with the warnings about those that are no patterns. -/
def Ignores.ofStrings (base : Path) : List String → Ignores × List ScanWarning
  | [] => ({}, [])
  | s :: rest =>
    let (ignores, warnings) := Ignores.ofStrings base rest
    if Pattern.isWild s then
      match Pattern.ofString s with
      | .ok pattern => ({ ignores with patterns := pattern :: ignores.patterns }, warnings)
      | .error error => (ignores, .badIgnore s error :: warnings)
    else ({ ignores with paths := base.join s :: ignores.paths }, warnings)

/-- Adds the patterns of test files. -/
def Ignores.addTestFiles (ignores : Ignores) : Ignores :=
  { ignores with
    patterns := ignores.patterns ++ testFilePatterns.filterMap fun s => (Pattern.ofString s).toOption }

/-- Whether a path is left out. -/
def Ignores.covers (ignores : Ignores) (p : Path) : Bool :=
  ignores.paths.any p.isBelow || ignores.patterns.any (·.fits p.text)

/-! ## Includes -/

/-- The paths that an include stands for, or a warning. -/
def includeRoots (t : FileTree) (base : Path) (s : String) : List Path × List ScanWarning :=
  let path := base.join s
  if Pattern.isWild s then
    match expand t path with
    | .ok paths => (paths, [])
    | .error error => ([], [.badInclude s error])
  else if t.pathExists path then ([path], [])
  else ([], [.missingInclude path])

/-- The paths where the search starts; without includes that is the directory itself. -/
def scanRoots (t : FileTree) (base : Path) (includes : List String) :
    List Path × List ScanWarning :=
  if includes.isEmpty then ([base], [])
  else
    let roots := includes.map (includeRoots t base)
    (roots.flatMap (·.1), roots.flatMap (·.2))

/-! ## Walking -/

/-- A path and all paths below it. Links are not followed. The second argument bounds the depth. -/
def walkBelow (t : FileTree) : Nat → Path → List Path
  | 0, p => [p]
  | n + 1, p =>
    match t.linkStatus p with
    | .ok .directory => p :: (t.list p).flatMap fun name => walkBelow t n (p.join name)
    | _ => [p]

/-- A path where a search starts and all paths below it. A link is followed there. -/
def walk (t : FileTree) (root : Path) : Except SystemError (List Path) := do
  let bound := t.entries.length + 1
  match ← t.linkStatus root with
  | .link _ =>
    match ← t.status root with
    | .directory => .ok (root :: (t.list root).flatMap fun name => walkBelow t bound (root.join name))
    | _ => .ok [root]
  | _ => .ok (walkBelow t bound root)

/-- Whether a path has the name of a source file. -/
def isSourceName (p : Path) : Bool :=
  p.extension? == some "ts" || p.extension? == some "tsx"

/-! ## The search -/

/-- What a search has found. -/
structure ScanResult where
  /-- The source files, sorted, each one once. -/
  files : List Path := []
  /-- How many paths could not be read. -/
  skipped : Nat := 0
  /-- The warnings, in order. -/
  warnings : List ScanWarning := []
  deriving Inhabited, Repr

/-- Adds what is found at and below one path. -/
def ScanResult.addRoot (t : FileTree) (ignores : Ignores) (result : ScanResult) (root : Path) :
    ScanResult :=
  match walk t root with
  | .error cause =>
    { result with
      skipped := result.skipped + 1
      warnings := result.warnings ++ [.inaccessible root cause] }
  | .ok paths =>
    let files := paths.filter fun p => !ignores.covers p && t.isFile p && isSourceName p
    { result with files := files.foldl (fun files p => p.insertSorted files) result.files }

/-- Looks for source files below a directory. -/
def scan (t : FileTree) (base : Path) (includes ignores : List String) (ignoreTests : Bool) :
    ScanResult :=
  let (ignored, ignoreWarnings) := Ignores.ofStrings base ignores
  let ignored := if ignoreTests then ignored.addTestFiles else ignored
  let (roots, includeWarnings) := scanRoots t base includes
  roots.foldl (ScanResult.addRoot t ignored) { warnings := ignoreWarnings ++ includeWarnings }

end DocBlock.Files
