import DocBlock.Source.Parser.Statements

/-! # Modules

The items of a file: imports and exports around the declarations and statements. An exported
declaration is documented before the word `export`, and its text starts after it. -/

namespace DocBlock.Source.Grammar

open DocBlock.Source.Parser

/-! ## Names that modules pass on -/

/-- Reads a name by which modules pass things on, and says whether it may name a variable. -/
def passedName : Parser Bool := do
  let token ← current
  match token.kind with
  | .word name _ => advance; return !("package" :: reservedWords).contains name.text
  | .string => advance; return false
  | _ => fail

/-- Reads the name of an entry after the word `type`, which may be a mark or the name itself: it is
the name when another name is given to it. The first parser reads that other name, the second one the
rest of an entry after its name. -/
def entryAfterType (typeOnly : Bool) (otherName : Parser String) (rest : String → Parser Bool) :
    Parser Bool := do
  let name ← word
  if name == "as" then
    if !(← current).isAnyWord then
      check !typeOnly
      return true
    let other ← otherName
    if other == "as" && (← current).isAnyWord then
      check !typeOnly
      discard otherName
    return true
  else
    check !typeOnly
    rest name

/-- Reads the other name that an imported thing is given, if there is one. Otherwise its own name has
to be that of a variable. -/
def importedAs (name : String) : Parser Bool := do
  if ← eatWord "as" then
    discard bindingName
    return true
  else
    require (isFreeName name)
    return true

/-- Reads one entry of an import between braces. -/
def importEntry (typeOnly : Bool) : Parser Unit := do
  if (← current).kind == .string then
    advance
    expectWord "as"
    discard bindingName
  else
    let name ← word
    if name == "type" && (← current).isAnyWord then
      discard (entryAfterType typeOnly bindingName importedAs)
    else discard (importedAs name)

/-- Reads the other name that an exported thing is given, if there is one; `isLocal` says whether its
own name may be that of a variable. -/
def exportedAs (isLocal : Bool) : Parser Bool := do
  if ← eatWord "as" then discard passedName
  return isLocal

/-- Reads one entry of an export between braces, and says whether it may name a variable. -/
def exportEntry (typeOnly : Bool) : Parser Bool := do
  let token ← current
  let isLocal ← passedName
  match token.kind with
  | .word ⟨"type", _⟩ _ =>
    if (← current).isAnyWord then
      entryAfterType typeOnly word fun name =>
        exportedAs !("package" :: reservedWords).contains name
    else exportedAs isLocal
  | _ => exportedAs isLocal

/-! ## Imports -/

/-- Reads the name of a module between quotes. -/
def moduleSpecifier : Parser Unit := do
  require ((← current).kind == .string)
  advance

/-- Reads how a module is to be loaded, if that is said. -/
def loadAttributes (r : Rules) : Parser Unit := do
  let token ← current
  if (token.isWord "with" || token.isWord "assert") && !token.lineBreak then
    advance
    let start := (← current).start
    expectMark "\x7b"
    discard (objectLiteral r start)

/-- Reads where things are imported from. -/
def importSource (r : Rules) : Parser Unit := do
  expectWord "from"
  moduleSpecifier
  loadAttributes r
  semicolon

/-- Reads what a name is imported as after an equals sign. -/
def importedAlias : Parser Unit := do
  expectMark "="
  if (← isWord "require") && (← peek).isMark "(" then
    advance
    advance
    moduleSpecifier
    expectMark ")"
  else discard (entityName properName)
  semicolon

/-- When the module that something is imported from is run. -/
inductive ImportPhase where
  | atOnce
  /-- The module is not run. -/
  | never
  /-- The module is run when something of it is used. -/
  | later
  deriving DecidableEq

/-- Reads a word that marks what is imported, if it does so: it may also be the name itself. -/
def eatImportMark (mark : String) : Parser Bool := do
  match (← current).kind with
  | .word name _ =>
    if name.text != mark then return false
    let token ← peek
    let marks ← looksLike do
      advance
      require (["*", "\x7b"].any token.isMark || (token.isAnyWord && (!token.isWord "from" ||
        (← peek).isWord "from" || (← peek).isMark "=")))
    if marks then advance
    return marks
  | _ => return false

/-- Reads when the module that something is imported from is run. -/
def importPhase : Parser ImportPhase := do
  if ← eatImportMark "source" then return .never
  else if ← eatImportMark "defer" then return .later
  else return .atOnce

/-- Reads the names that are imported beside the default one. Which ones there may be depends on when
the module is run. -/
def importedNames (phase : ImportPhase) (typeOnly : Bool) : Parser Unit := do
  if phase != .never && (← eatMark "*") then
    expectWord "as"
    discard bindingName
  else if phase == .atOnce && (← eatMark "\x7b") then
    discard (commaList "\x7d" (importEntry typeOnly))

/-- Reads what is imported and from where. -/
def importClause (r : Rules) : Parser Unit := do
  let typeOnly ← eatImportMark "type"
  let phase ← importPhase
  if (← isMark "*") || (← isMark "\x7b") then
    importedNames phase typeOnly
    importSource r
  else
    require (← current).isFreeName
    discard bindingName
    if phase == .atOnce && (← isMark "=") then importedAlias
    else
      discard (eatMark ",")
      importedNames phase typeOnly
      importSource r

/-- Reads an import after the word that opens it. -/
def importTail (r : Rules) : Parser Unit := do
  if (← current).kind == .string then
    moduleSpecifier
    loadAttributes r
    semicolon
  else importClause r

/-! ## Exports -/

/-- Reads names that are exported, perhaps from another module. -/
def exportedNames (r : Rules) (typeOnly : Bool) : Parser Unit := do
  if ← eatMark "*" then
    if ← eatWord "as" then discard passedName
    importSource r
  else
    expectMark "\x7b"
    let isLocal ← commaList "\x7d" (exportEntry typeOnly)
    if ← isWord "from" then importSource r
    else
      check (isLocal.all id)
      discard eatSemicolon

/-- Reads the default export after its words; `decorated` says whether decorators stand before the
export. A value is not documented. -/
def defaultExport (r : Rules) (decorated : Bool) (documented : Token) : Parser (List Item) := do
  require !((← decorators r) && decorated)
  let first ← current
  let next ← peek
  if first.isWord "abstract" && next.isWord "class" && !next.lineBreak then
    advance
    classDeclaration r true (some "default") first documented
  else if first.isWord "interface" then interfaceDeclaration r first documented
  else if first.isWord "class" then classDeclaration r false (some "default") first documented
  else if first.isWord "async" && next.isWord "function" && !next.lineBreak then
    advance
    advance
    functionDeclaration r true (some "default") first documented
  else if ← eatWord "function" then functionDeclaration r false (some "default") first documented
  else
    discard r.assignment
    semicolon
    return []

/-- Reads a declaration after `export`, if there is one. One of the language of types is only tried. -/
def exportedType? (r : Rules) (documented : Token) : Parser (Option (List Item)) := do
  let first ← current
  if ← eatWord "declare" then
    match ← ambientDeclaration? r first documented with
    | some items => return some items
    | none => return (← speculate (typeDeclaration? r (← current) documented)).join
  else return (← speculate (typeDeclaration? r first documented)).join

/-- Reads an export that gives a name or value to the module as a whole, if there is one. -/
def exportedModule? (r : Rules) (documented : Token) : Parser (Option (List Item)) := do
  if ← eatWord "import" then
    let next ← peek
    if (← isWord "type") && next.isFreeName then advance
    discard word
    importedAlias
    return some []
  else if ← eatMark "=" then
    discard r.expression
    semicolon
    return some [.exportAssignment (← originOf documented documented)]
  else if ← eatWord "as" then
    expectWord "namespace"
    discard freeName
    semicolon
    return some []
  else return none

/-- Reads a declaration of values after `export`, if there is one. -/
def exportedValue? (r : Rules) (documented : Token) : Parser (Option (List Item)) := do
  let first ← current
  firstOf
    [functionOrClass? r first documented, asyncFunction? r documented,
     constantEnum? r first documented, variables? r documented]

/-- Reads an export of names or values; `decorated` says whether decorators stand before it. -/
def exportedItems (r : Rules) (decorated : Bool) (documented : Token) : Parser (List Item) := do
  if ← eatWord "type" then
    exportedNames r true
    return []
  else if ← eatWord "default" then defaultExport r decorated documented
  else
    require !((← decorators r) && decorated)
    match ← exportedValue? r documented with
    | some items => return items
    | none => exportedNames r false; return []

/-- Reads an export after its word; `decorated` says whether decorators stand before it. -/
def exportTail (r : Rules) (decorated : Bool) (documented : Token) : Parser (List Item) := do
  match ← firstOf [exportedType? r documented, exportedModule? r documented] with
  | some items => return items
  | none => exportedItems r decorated documented

/-! ## Items -/

/-- Whether an import starts here that is not an expression. -/
def atImport : Parser Bool := do
  let next ← peek
  return (← isWord "import") && !next.isMark "(" && !next.isMark "."

/-- Reads one item of a file or namespace. -/
def moduleItem (r : Rules) : Parser (List Item) := do
  let passes ← looksLike do
    discard (decorators r)
    require ((← isWord "export") || (← atImport))
  if passes then
    let decorated ← decorators r
    let documented ← current
    if ← eatWord "import" then
      importTail r
      return []
    else
      expectWord "export"
      exportTail r decorated documented
  else r.statement true

/-! ## The whole grammar -/

/-- The rules for constructs that are nested at most as deep as the argument says. -/
def rules : Nat → Rules
  | 0 => Rules.empty
  | n + 1 => {
    type := fun s => type (rules n) s
    plainType := fun s => plainType (rules n) s
    assignment := fun s => assignment (rules n) s
    unary := fun s => unary (rules n) s
    leftHand := fun s => leftHand (rules n) s
    callee := fun s => callee (rules n) s
    inherited := fun s => inherited (rules n) s
    decorator := fun s => decorator (rules n) s
    pattern := fun s => pattern (rules n) s
    element := fun s => element (rules n) s
    statement := fun declarations s => statement (rules n) declarations s
    moduleItem := fun s => moduleItem (rules n) s }

/-- Reads all items up to the end of the text. -/
def moduleItems (r : Rules) : Parser (List Item) := do
  let items ← repeating do
    if (← current).kind == .ending then return none
    return some (← r.moduleItem)
  return items.flatten

end DocBlock.Source.Grammar
