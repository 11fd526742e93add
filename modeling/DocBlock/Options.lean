import DocBlock.Path

/-! # Options of a run

The version of the language and the kind of modules that sources are written for, and where the
documentation of a source file is written to. -/

namespace DocBlock

/-- A text with its ASCII letters in upper case. -/
def asciiUpper (s : String) : String :=
  String.ofList (s.toList.map Char.toUpper)

/-- The version of the language that sources are written in. -/
inductive Target where
  | es3
  | es5
  | es6
  | latest
  /-- A version that is not known, as written. -/
  | unrecognized (text : String)
  deriving DecidableEq, Inhabited, Repr

/-- Reads a version; letters of ASCII may be written in either case. -/
def Target.ofString (s : String) : Target :=
  match asciiUpper s with
  | "LATEST" => latest
  | "ES3" => es3
  | "ES5" => es5
  | "ES6" => es6
  | "ES2015" => es6
  | _ => unrecognized s

/-- The kind of modules that sources are written for. -/
inductive ModuleKind where
  | plain
  | commonJs
  | amd
  deriving DecidableEq, Inhabited, Repr

/-- Reads a kind of modules; what is not known is plain. -/
def ModuleKind.ofString (s : String) : ModuleKind :=
  match asciiUpper s with
  | "COMMONJS" => commonJs
  | "AMD" => amd
  | _ => plain

/-- The options of a run. -/
structure Options where
  /-- The version of the language. -/
  target : Target := .es6
  /-- The kind of modules. -/
  module : ModuleKind := .plain
  /-- The directory that documentation is written to, instead of that of the source. -/
  outDir : Option Path := none
  /-- The one file that all documentation is written to. -/
  outFile : Option Path := none
  deriving DecidableEq, Inhabited, Repr

/-- The ends of the names of source files, longer ones first. -/
def sourceExtensions : List String :=
  [".d.tsx", ".d.ts", ".tsx", ".ts"]

/-- The end of the names of documentation files. -/
def docExtension : String :=
  ".jsdoc"

/-- The name of the documentation of a source file. -/
def docName (sourceName : String) : String :=
  let stem := sourceExtensions.findSome? fun ending => Text.before? ending.toList sourceName.toList
  String.ofList (stem.getD sourceName.toList) ++ docExtension

/-- Where the documentation of a source file is written to. -/
def Options.outputPath (options : Options) (source : Path) : Path :=
  match options.outFile with
  | some file => file
  | none =>
    let name := docName (source.fileName?.getD "")
    match options.outDir with
    | some dir => dir.join name
    | none => source.withFileName name

end DocBlock
