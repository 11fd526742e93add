import DocBlock.Config.Json
import DocBlock.Glob.Pattern
import DocBlock.Options

/-! # Configuration

What a configuration file says about a run, and how it is read and checked. Fields that are not
given have their usual values; fields that are not known are passed over. -/

namespace DocBlock

/-- The configuration of a run. -/
structure Config where
  /-- What is left out: paths and patterns. -/
  ignores : List String := []
  /-- Where source files are looked for: paths and patterns. -/
  includes : List String := ["src/**/*.ts"]
  /-- The directory that includes and ignores start from. -/
  sourceRoot : String := "./"
  /-- Whether test files are left out. -/
  ignoreTestFiles : Bool := true
  /-- The version of the language. -/
  target : String := "ES6"
  /-- The kind of modules. -/
  module : String := "commonjs"
  /-- The directory that documentation is written to. -/
  outDir : Option String := none
  /-- The one file that all documentation is written to. -/
  outFile : Option String := none
  deriving DecidableEq, Inhabited, Repr

namespace Config

/-! ## Reading -/

/-- The text that a value denotes. -/
def textField? : Json.Value → Option String
  | .string units => Json.stringOf? units
  | _ => none

/-- The truth value that a value denotes. -/
def flagField? : Json.Value → Option Bool
  | .bool b => some b
  | _ => none

/-- The texts that an array denotes. -/
def textsField? : Json.Value → Option (List String)
  | .array values => values.mapM textField?
  | _ => none

/-- The text that a value denotes, where there need not be one. -/
def optionalField? : Json.Value → Option (Option String)
  | .null => some none
  | value => (textField? value).map some

/-- The names of the fields, in order. -/
def fieldNames : List String :=
  ["ignores", "includes", "sourceRoot", "ignoreTestFiles", "target", "module", "outDir", "outFile"]

/-- Sets the field with the given name. A field that is not known is passed over. -/
def setField? (config : Config) (name : String) (value : Json.Value) : Option Config :=
  match name with
  | "ignores" => (textsField? value).map fun ignores => { config with ignores }
  | "includes" => (textsField? value).map fun includes => { config with includes }
  | "sourceRoot" => (textField? value).map fun sourceRoot => { config with sourceRoot }
  | "ignoreTestFiles" => (flagField? value).map fun ignoreTestFiles => { config with ignoreTestFiles }
  | "target" => (textField? value).map fun target => { config with target }
  | "module" => (textField? value).map fun module => { config with module }
  | "outDir" => (optionalField? value).map fun outDir => { config with outDir }
  | "outFile" => (optionalField? value).map fun outFile => { config with outFile }
  | _ => some config

/-- Sets several fields one after the other. -/
def setFields? (config : Config) : List (String × Json.Value) → Option Config
  | [] => some config
  | (name, value) :: fields => (config.setField? name value).bind fun c => c.setFields? fields

/-- The members of an object with the names they denote. -/
def namedMembers? (members : List (List Json.Unit16 × Json.Value)) :
    Option (List (String × Json.Value)) :=
  members.mapM fun (name, value) => (Json.stringOf? name).map fun name => (name, value)

/-- Reads a configuration. It is an object whose known fields are given at most once, or an array of
the first fields in order. -/
def ofValue? : Json.Value → Option Config
  | .object members => do
    let fields ← namedMembers? members
    let known := (fields.map (·.1)).filter fieldNames.contains
    if known.Nodup then setFields? {} fields else none
  | .array values =>
    if values.length ≤ fieldNames.length then setFields? {} (fieldNames.zip values) else none
  | _ => none

/-- Reads the text of a configuration file. -/
def ofString? (s : String) : Option Config :=
  (Json.parse? s).bind ofValue?

/-! ## Checking -/

/-- A text in the configuration that should be a pattern. -/
structure BadPattern where
  /-- The field it stands in. -/
  field : String
  /-- The text. -/
  text : String
  /-- Why it is no pattern. -/
  error : Glob.PatternError
  deriving DecidableEq, Inhabited, Repr

/-- Which text should be a pattern, and where. -/
def BadPattern.summary (b : BadPattern) : String :=
  "Invalid glob pattern in '" ++ b.field ++ "': \"" ++ b.text ++ "\""

/-- Which text should be a pattern, where, and why it is none. -/
def BadPattern.message (b : BadPattern) : String :=
  b.summary ++ ": " ++ b.error.message

/-- The first of some texts that is no pattern. -/
def badPattern? (field : String) (texts : List String) : Option BadPattern :=
  texts.findSome? fun text =>
    match Glob.Pattern.ofString text with
    | .ok _ => none
    | .error error => some { field, text, error }

/-- The first text that should be a pattern and is none. Ignores are patterns; an include is one only
when it has wild characters. -/
def invalid? (config : Config) : Option BadPattern :=
  (badPattern? "ignores" config.ignores).or
    (badPattern? "includes" (config.includes.filter Glob.Pattern.isWild))

/-- The options that a configuration describes. -/
def options (config : Config) : Options where
  target := .ofString config.target
  module := .ofString config.module
  outDir := config.outDir.map Path.mk
  outFile := config.outFile.map Path.mk

/-! ## Writing -/

/-- The name of a configuration file. -/
def fileName : String :=
  ".tsjsdocrc.json"

/-- A list of texts, written over several lines with the given margin. -/
def renderTexts (margin : String) (texts : List String) : String :=
  if texts.isEmpty then "[]"
  else
    let lines := texts.map fun text => margin ++ "  " ++ Json.quote text
    "[\n" ++ Text.joinStrings ",\n" lines ++ "\n" ++ margin ++ "]"

/-- A truth value as it is written. -/
def renderFlag (b : Bool) : String :=
  if b then "true" else "false"

/-- The text of a configuration file. Places for output that are not given are left out. -/
def render (config : Config) : String :=
  let field (name value : String) := "  " ++ Json.quote name ++ ": " ++ value
  let optional (name : String) (value : Option String) := value.toList.map fun v => field name (Json.quote v)
  let fields :=
    [field "ignores" (renderTexts "  " config.ignores),
     field "includes" (renderTexts "  " config.includes),
     field "sourceRoot" (Json.quote config.sourceRoot),
     field "ignoreTestFiles" (renderFlag config.ignoreTestFiles),
     field "target" (Json.quote config.target),
     field "module" (Json.quote config.module)] ++
    optional "outDir" config.outDir ++ optional "outFile" config.outFile
  "\x7b\n" ++ Text.joinStrings ",\n" fields ++ "\n\x7d"

end Config

end DocBlock
