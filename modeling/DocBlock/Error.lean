/-! # What can go wrong

Errors are causes; the wording of each one stands in `message`. -/

namespace DocBlock

/-- Why a file or directory could not be used. -/
inductive SystemError where
  | notFound
  | alreadyExists
  | notDirectory
  | isDirectory
  /-- A name, or the path as a whole, is longer than any can be. -/
  | nameTooLong
  | tooManyLinks
  /-- A name holds the character that ends names in the system. -/
  | nameWithNul
  /-- The content of a file is not text. -/
  | notText
  deriving DecidableEq, Inhabited, Repr

/-- The wording of a system error. -/
def SystemError.message : SystemError → String
  | notFound => "No such file or directory (os error 2)"
  | alreadyExists => "File exists (os error 17)"
  | notDirectory => "Not a directory (os error 20)"
  | isDirectory => "Is a directory (os error 21)"
  | nameTooLong => "File name too long (os error 36)"
  | tooManyLinks => "Too many levels of symbolic links (os error 40)"
  | nameWithNul => "file name contained an unexpected NUL byte"
  | notText => "stream did not contain valid UTF-8"

/-- Why a source file has no documentation. -/
inductive Error where
  /-- No declaration encloses an anonymous type, so that it cannot be named. -/
  | unnamed (file kind excerpt : String)
  /-- An inline type is part of itself. -/
  | circular (file : String)
  /-- The file is not valid source code; the position is that of the first problem. -/
  | malformed (file : String) (line column : Nat)
  /-- The file cannot be read or written. -/
  | inaccessible (path : String) (cause : SystemError)
  deriving DecidableEq, Inhabited, Repr

/-- The wording of an error. -/
def Error.message : Error → String
  | unnamed file kind excerpt =>
    "cannot name anonymous type in " ++ file ++ ": no enclosing declaration for " ++ kind ++ " `" ++
      excerpt ++ "`"
  | circular file => "an inline type in " ++ file ++ " is part of itself"
  | malformed file line column =>
    "failed to parse " ++ file ++ ": syntax error at line " ++ toString line ++ ", column " ++
      toString column
  | inaccessible path cause => "failed to access " ++ path ++ ": " ++ cause.message

end DocBlock
