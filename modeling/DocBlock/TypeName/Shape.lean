import DocBlock.Text.Lines

/-! # Shapes of type names

A type name is read as a small tree: names with generic arguments, arrays, unions and parentheses.

```text
union   := arrayed ("|" arrayed)*
arrayed := primary ("[" "]")*
primary := "(" union ")" | name ("<" union ("," union)* ">")?
```

White space may surround any token. A name is a run of characters other than the ten delimiters;
one dot at its end is dropped, because `Foo.<Bar>` is the documentation spelling of `Foo<Bar>`. -/

namespace DocBlock.TypeName

/-- The tree of a type name. -/
inductive Shape where
  /-- A name with its generic arguments. -/
  | named (name : List Char) (args : List Shape)
  /-- An array of its element. -/
  | array (element : Shape)
  /-- A union of two or more members. -/
  | union (members : List Shape)
  /-- A name in parentheses. -/
  | paren (inner : Shape)
  deriving Inhabited, Repr

namespace Shape

/-! ## Documentation spelling -/

mutual

/-- The documentation spelling: generic arguments in `.<…>`, arrays as `Array.<…>` without the
parentheses directly around the element. -/
def render : Shape → List Char
  | named name [] => name
  | named name (arg :: args) =>
    name ++ ".<".toList ++ Text.join ", ".toList (renderAll (arg :: args)) ++ ">".toList
  | array (paren inner) => "Array.<".toList ++ render inner ++ ">".toList
  | array element => "Array.<".toList ++ render element ++ ">".toList
  | union members => Text.join " | ".toList (renderAll members)
  | paren inner => "(".toList ++ render inner ++ ")".toList

/-- The documentation spellings of several shapes. -/
def renderAll : List Shape → List (List Char)
  | [] => []
  | shape :: shapes => render shape :: renderAll shapes

end

/-! ## Reading -/

/-- The characters that cannot stand in a name. -/
def isDelimiter (c : Char) : Bool :=
  "<>,|()[]\x7b\x7d".toList.contains c

/-- What follows a token, which may stand after white space. -/
def eat? (token : Char) (cs : List Char) : Option (List Char) :=
  match Text.trimStart cs with
  | [] => none
  | c :: rest => if c = token then some rest else none

/-- The name at the start of a text and what follows it. -/
def name? (cs : List Char) : Option (List Char × List Char) :=
  let cs := Text.trimStart cs
  let raw := Text.trimEnd (cs.takeWhile fun c => !isDelimiter c)
  if raw.isEmpty then none else some (raw, cs.dropWhile fun c => !isDelimiter c)

/-- A name without the dot at its end. -/
def dropDot (name : List Char) : List Char :=
  if name.getLast? = some '.' then name.dropLast else name

/-- A union of the given members; a single member stands for itself. -/
def ofMembers (first : Shape) : List Shape → Shape
  | [] => first
  | others => union (first :: others)

mutual

/-- Reads a union. The first argument of each reader bounds the depth of the reading. -/
def union? : Nat → List Char → Option (Shape × List Char)
  | 0, _ => none
  | n + 1, cs => do
    let (first, cs) ← arrayed? n cs
    let (others, cs) ← members? n cs
    return (ofMembers first others, cs)

/-- Reads the members of a union after the first one. -/
def members? : Nat → List Char → Option (List Shape × List Char)
  | 0, _ => none
  | n + 1, cs =>
    match eat? '|' cs with
    | none => some ([], cs)
    | some cs => do
      let (member, cs) ← arrayed? n cs
      let (others, cs) ← members? n cs
      return (member :: others, cs)

/-- Reads a primary with the pairs of brackets after it. -/
def arrayed? : Nat → List Char → Option (Shape × List Char)
  | 0, _ => none
  | n + 1, cs => do
    let (element, cs) ← primary? n cs
    brackets? n element cs

/-- Reads the pairs of brackets after a shape. -/
def brackets? : Nat → Shape → List Char → Option (Shape × List Char)
  | 0, _, _ => none
  | n + 1, element, cs =>
    match eat? '[' cs with
    | none => some (element, cs)
    | some cs => do
      let cs ← eat? ']' cs
      brackets? n (array element) cs

/-- Reads a shape in parentheses, or a name with its generic arguments. -/
def primary? : Nat → List Char → Option (Shape × List Char)
  | 0, _ => none
  | n + 1, cs =>
    match eat? '(' cs with
    | some cs => do
      let (inner, cs) ← union? n cs
      let cs ← eat? ')' cs
      return (paren inner, cs)
    | none => do
      let (name, cs) ← name? cs
      match eat? '<' cs with
      | none => return (named (dropDot name) [], cs)
      | some cs =>
        let (first, cs) ← union? n cs
        let (others, cs) ← arguments? n cs
        let cs ← eat? '>' cs
        return (named (dropDot name) (first :: others), cs)

/-- Reads the generic arguments after the first one. -/
def arguments? : Nat → List Char → Option (List Shape × List Char)
  | 0, _ => none
  | n + 1, cs =>
    match eat? ',' cs with
    | none => some ([], cs)
    | some cs => do
      let (arg, cs) ← union? n cs
      let (others, cs) ← arguments? n cs
      return (arg :: others, cs)

end

/-- A depth that no reading of the text exceeds: at most four readers start between two characters
that are taken. -/
def depthBound (cs : List Char) : Nat :=
  4 * cs.length + 8

/-- The shape of a text that is one union from end to end. -/
def parse? (cs : List Char) : Option Shape :=
  match union? (depthBound cs) cs with
  | none => none
  | some (shape, rest) => if Text.isAllBlank rest then some shape else none

end Shape

end DocBlock.TypeName
