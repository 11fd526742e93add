import DocBlock.Text.Lines

/-! # JSON

Reading and writing the format of configuration files. Objects keep all their members in order, so
that a reader can refuse one that is given twice. A string is kept as it is written, since not every
string that may be written denotes a text. -/

namespace DocBlock.Json

/-- A part of a written string. -/
inductive Unit16 where
  | char (c : Char)
  /-- A unit that is written by its number, perhaps one half of a character. -/
  | code (n : Nat)
  deriving DecidableEq, Inhabited, Repr

/-- A JSON value. -/
inductive Value where
  | null
  | bool (b : Bool)
  | number
  | string (units : List Unit16)
  | array (values : List Value)
  | object (members : List (List Unit16 × Value))
  deriving Inhabited

/-- The text that a written string denotes. Two halves of a character have to stand together. -/
def textOf? : List Unit16 → Option (List Char)
  | [] => some []
  | .char c :: units => (textOf? units).map (c :: ·)
  | .code high :: units =>
    if 0xD800 ≤ high && high ≤ 0xDBFF then
      match units with
      | .code low :: units =>
        if 0xDC00 ≤ low && low ≤ 0xDFFF then
          (textOf? units).map (Char.ofNat (0x10000 + (high - 0xD800) * 0x400 + (low - 0xDC00)) :: ·)
        else none
      | _ => none
    else if 0xDC00 ≤ high && high ≤ 0xDFFF then none
    else (textOf? units).map (Char.ofNat high :: ·)

/-- The text that a written string denotes. -/
def stringOf? (units : List Unit16) : Option String :=
  (textOf? units).map String.ofList

/-! ## Reading -/

/-- Whether a character separates the parts of a value. -/
def isSpace (c : Char) : Bool :=
  c == ' ' || c == '\n' || c == '\t' || c == '\r'

/-- A text without the space before it. -/
def skip (cs : List Char) : List Char :=
  cs.dropWhile isSpace

/-- The value of a hexadecimal digit. -/
def hexDigit? (c : Char) : Option Nat :=
  if c.isDigit then some (c.toNat - '0'.toNat)
  else if 'a' ≤ c && c ≤ 'f' then some (c.toNat - 'a'.toNat + 10)
  else if 'A' ≤ c && c ≤ 'F' then some (c.toNat - 'A'.toNat + 10)
  else none

/-- The character that a short escape stands for. -/
def escaped? : Char → Option Char
  | '"' => some '"'
  | '\\' => some '\\'
  | '/' => some '/'
  | 'b' => some '\x08'
  | 'f' => some '\x0c'
  | 'n' => some '\n'
  | 'r' => some '\r'
  | 't' => some '\t'
  | _ => none

/-- Reads a string after its opening quote. -/
def string? : List Char → Option (List Unit16 × List Char)
  | [] => none
  | '"' :: rest => some ([], rest)
  | '\\' :: 'u' :: a :: b :: c :: d :: rest => do
    let n := (((← hexDigit? a) * 16 + (← hexDigit? b)) * 16 + (← hexDigit? c)) * 16 + (← hexDigit? d)
    let (units, rest) ← string? rest
    return (.code n :: units, rest)
  | '\\' :: e :: rest => do
    let c ← escaped? e
    let (units, rest) ← string? rest
    return (.char c :: units, rest)
  | c :: rest => do
    if c == '\\' || c.toNat < 0x20 then none
    let (units, rest) ← string? rest
    return (.char c :: units, rest)

/-- Reads one digit or more. -/
def digits? (cs : List Char) : Option (List Char) :=
  match cs with
  | c :: rest => if c.isDigit then some (rest.dropWhile Char.isDigit) else none
  | [] => none

/-- Reads the whole part of a number, which has no needless zero. -/
def whole? (cs : List Char) : Option (List Char) :=
  match cs with
  | '0' :: rest => if (rest.head?.map Char.isDigit).getD false then none else some rest
  | _ => digits? cs

/-- Reads the fraction of a number, if there is one. -/
def fraction? (cs : List Char) : Option (List Char) :=
  match cs with
  | '.' :: rest => digits? rest
  | _ => some cs

/-- Reads the exponent of a number, if there is one. -/
def exponent? (cs : List Char) : Option (List Char) :=
  match cs with
  | e :: rest =>
    if e == 'e' || e == 'E' then
      match rest with
      | '+' :: rest => digits? rest
      | '-' :: rest => digits? rest
      | _ => digits? rest
    else some cs
  | [] => some cs

/-- Reads a number. -/
def number? (cs : List Char) : Option (List Char) :=
  let unsigned := match cs with
    | '-' :: rest => rest
    | _ => cs
  (whole? unsigned).bind fun cs => (fraction? cs).bind exponent?

mutual

/-- Reads a value. The first argument bounds the number of values. -/
def value? : Nat → List Char → Option (Value × List Char)
  | 0, _ => none
  | n + 1, cs =>
    match skip cs with
    | '"' :: rest => (string? rest).map fun (units, rest) => (.string units, rest)
    | '[' :: rest =>
      match skip rest with
      | ']' :: rest => some (.array [], rest)
      | rest => (elements? n rest).map fun (values, rest) => (.array values, rest)
    | '\x7b' :: rest =>
      match skip rest with
      | '\x7d' :: rest => some (.object [], rest)
      | rest => (members? n rest).map fun (members, rest) => (.object members, rest)
    | rest =>
      match Text.after? "null".toList rest, Text.after? "true".toList rest,
        Text.after? "false".toList rest with
      | some rest, _, _ => some (.null, rest)
      | _, some rest, _ => some (.bool true, rest)
      | _, _, some rest => some (.bool false, rest)
      | none, none, none => (number? rest).map fun rest => (.number, rest)

/-- Reads the elements of an array up to its end. -/
def elements? : Nat → List Char → Option (List Value × List Char)
  | 0, _ => none
  | n + 1, cs => do
    let (value, rest) ← value? n cs
    match skip rest with
    | ']' :: rest => some ([value], rest)
    | ',' :: rest => do
      let (values, rest) ← elements? n rest
      some (value :: values, rest)
    | _ => none

/-- Reads the members of an object up to its end. -/
def members? : Nat → List Char → Option (List (List Unit16 × Value) × List Char)
  | 0, _ => none
  | n + 1, cs => do
    match skip cs with
    | '"' :: rest => do
      let (name, rest) ← string? rest
      match skip rest with
      | ':' :: rest => do
        let (value, rest) ← value? n rest
        match skip rest with
        | '\x7d' :: rest => some ([(name, value)], rest)
        | ',' :: rest => do
          let (members, rest) ← members? n rest
          some ((name, value) :: members, rest)
        | _ => none
      | _ => none
    | _ => none

end

/-- The value that a whole text denotes. -/
def parse? (s : String) : Option Value := do
  let (value, rest) ← value? (2 * s.length + 2) s.toList
  if (skip rest).isEmpty then some value else none

/-! ## Writing -/

/-- One hexadecimal digit. -/
def hexDigit (n : Nat) : Char :=
  "0123456789abcdef".toList.getD n '0'

/-- A character inside a written string. -/
def escape (c : Char) : List Char :=
  match c with
  | '"' => "\\\"".toList
  | '\\' => "\\\\".toList
  | '\n' => "\\n".toList
  | '\r' => "\\r".toList
  | '\t' => "\\t".toList
  | '\x08' => "\\b".toList
  | '\x0c' => "\\f".toList
  | c =>
    if c.toNat < 0x20 then "\\u00".toList ++ [hexDigit (c.toNat / 16), hexDigit (c.toNat % 16)]
    else [c]

/-- A text as a string between quotes. -/
def quote (s : String) : String :=
  String.ofList ('"' :: s.toList.flatMap escape ++ ['"'])

end DocBlock.Json
