import DocBlock.Config.Basic
import DocBlock.Files.Tree
import DocBlock.Text.Hidden

/-! # Finding the configuration

The configuration of a directory is the nearest one at or above it, within the repository: a
directory that holds a repository is the last one that is looked at. -/

namespace DocBlock.Config

open Files

/-- The entry that marks the top directory of a repository. -/
def repositoryMark : String :=
  ".git"

/-- The first configuration file in some directories, which are looked at in order up to the one
that holds a repository. -/
def nearest? (present : Path → Bool) : List Path → Option Path
  | [] => none
  | dir :: dirs =>
    if present (dir.join fileName) then some (dir.join fileName)
    else if present (dir.join repositoryMark) then none
    else nearest? present dirs

/-- The configuration file of a directory. -/
def find? (t : FileTree) (dir : Path) : Option Path :=
  nearest? t.pathExists dir.upwards

/-- Why there is no configuration. -/
inductive LoadError where
  /-- The file cannot be read. -/
  | unreadable (path : Path)
  /-- The file holds no configuration. -/
  | malformed (path : Path)
  /-- A text in the file should be a pattern and is none. -/
  | badPattern (cause : BadPattern)
  deriving DecidableEq, Inhabited, Repr

/-- One hexadecimal digit or more. -/
def hexText (n : Nat) : List Char :=
  Nat.toDigits 16 n

/-- A character inside a quoted path: quotes, backslashes and hidden characters are escaped. -/
def escapeVisibly (c : Char) : List Char :=
  match c with
  | '"' => "\\\"".toList
  | '\\' => "\\\\".toList
  | '\n' => "\\n".toList
  | '\r' => "\\r".toList
  | '\t' => "\\t".toList
  | '\x00' => "\\0".toList
  | c =>
    if Text.isHidden c then "\\u\x7b".toList ++ hexText c.toNat ++ ['\x7d'] else [c]

/-- A path between quotes. -/
def quotePath (p : Path) : String :=
  String.ofList ('"' :: p.text.toList.flatMap escapeVisibly ++ ['"'])

/-- The wording of an error. -/
def LoadError.message : LoadError → String
  | unreadable path => "Failed to read config file: " ++ quotePath path
  | malformed path => "Failed to parse config file: " ++ quotePath path
  | badPattern cause => cause.summary

/-- The configuration of a directory; without a file it is the usual one. -/
def load (t : FileTree) (dir : Path) : Except LoadError Config :=
  match find? t dir with
  | none => .ok {}
  | some path =>
    match t.read path with
    | .error _ => .error (.unreadable path)
    | .ok text =>
      match ofString? text with
      | none => .error (.malformed path)
      | some config =>
        match config.invalid? with
        | some cause => .error (.badPattern cause)
        | none => .ok config

end DocBlock.Config
