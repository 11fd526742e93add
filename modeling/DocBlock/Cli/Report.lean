import DocBlock.Output

/-! # Reports

The lines that a run prints about what it has done and what it could not do. -/

namespace DocBlock.Cli

/-- The mark of success. -/
def successMark : String := "✓"

/-- The mark of failure. -/
def failureMark : String := "✘"

/-- One line of output. -/
def line (s : String) : String :=
  s ++ "\n"

/-- A line about something that was done. -/
def successLine (s : String) : String :=
  line (successMark ++ " " ++ s)

/-- A line about something that was not done. -/
def failureLine (s : String) : String :=
  line (failureMark ++ " " ++ s)

/-- A warning, as a line. -/
def warningLine (s : String) : String :=
  line ("warning: " ++ s)

/-- A number of source files. -/
def sourceFiles (count : Nat) : String :=
  toString count ++ " source " ++ if count = 1 then "file" else "files"

/-- The lines about source files that have no documentation. -/
def problemLines (s : Summary) : String :=
  String.join (s.failed.map fun e => failureLine e.message)

/-- The line about all source files of a run. -/
def totalLine (s : Summary) (inputs : Nat) : String :=
  let documented := inputs - s.failed.length
  if s.failed.isEmpty then successLine ("Documented " ++ sourceFiles documented)
  else
    failureLine ("Documented " ++ toString documented ++ " of " ++ sourceFiles inputs ++ ", " ++
      toString s.failed.length ++ " failed")

/-- The lines about what was done; the files that were written are only listed on request. -/
def summaryLines (s : Summary) (inputs : Nat) (verbose : Bool) : String :=
  (if verbose then String.join (s.written.map fun p => line ("  wrote " ++ p.text)) else "") ++
    totalLine s inputs

end DocBlock.Cli
