import DocBlock.Decl.Tree

/-! # Symbols

A symbol is a declared name inside its named scopes, outermost first; an ambient module keeps its
quotes. Type references only see what is declared at the level of a file or a namespace. They look
symbols up by their dotted names, and of several symbols with one dotted name they see the one that
was declared last. -/

namespace DocBlock

/-- A named entity. -/
structure Symbol where
  /-- The own name. -/
  name : String
  /-- The names of the enclosing scopes, outermost first. -/
  container : List String
  deriving DecidableEq, Inhabited, Repr

/-- The dotted name of a symbol. -/
def Symbol.dotted (s : Symbol) : String :=
  Text.joinStrings "." (s.container ++ [s.name])

/-- The name under which a declaration is a symbol. The name of an ambient module is in quotes. -/
def Decl.symbolName? : Decl → Option String
  | .namespaceDecl n => some (if n.external then "\"" ++ n.name ++ "\"" else n.name)
  | decl => decl.name?

namespace Tree

/-- The names of the scopes among some nodes. -/
def scopeNames (t : Tree) (isScope : Decl → Bool) (nodes : List NodeId) : List String :=
  (nodes.filter fun i => isScope (t.decl i)).filterMap fun i => (t.decl i).symbolName?

/-- The symbol of a declaration that has a name. -/
def symbol? (t : Tree) (i : NodeId) : Option Symbol :=
  (t.decl i).symbolName?.map fun name =>
    { name, container := (t.scopeNames Decl.isNamedScope (t.ancestors i)).reverse }

/-- Whether a declaration can be the target of a type reference. -/
def isReferable (t : Tree) (i : NodeId) : Bool :=
  (match t.decl i with
    | .classDecl _ | .interface _ | .enum _ | .typeAlias _ | .namespaceDecl _ => true
    | .callable .function _ | .variableDecl .standalone _ => true
    | _ => false) &&
  (t.ancestors i).all fun a => (t.decl a).isNamespace || (t.decl a).isFile

/-- The symbols of the declarations that type references can reach. -/
def referableSymbols (t : Tree) : List Symbol :=
  (t.preorder.filter t.isReferable).filterMap t.symbol?

end Tree

/-- The symbols that the type references of a program can reach. -/
structure SymbolTable where
  /-- The symbols in the order of their declarations. -/
  symbols : List Symbol := []
  deriving Inhabited, Repr

namespace SymbolTable

/-- The table of the symbols declared in some files. -/
def ofTrees (trees : List Tree) : SymbolTable :=
  { symbols := trees.flatMap Tree.referableSymbols }

/-- The symbol with a dotted name. A later declaration hides the earlier ones of the same name. -/
def find? (table : SymbolTable) (dotted : String) : Option Symbol :=
  table.symbols.reverse.find? fun symbol => symbol.dotted == dotted

/-- Looks a name up in scopes given outermost first: inside all of them, then inside fewer and fewer
outer ones, and last outside of all. -/
def lookup? (table : SymbolTable) (scopes : List String) (name : String) : Option Symbol :=
  (List.range (scopes.length + 1)).reverse.findSome? fun depth =>
    table.find? (Text.joinStrings "." (scopes.take depth ++ [name]))

/-- The symbol that a reference written on a declaration reaches. -/
def resolve? (table : SymbolTable) (t : Tree) (owner : NodeId) (name : String) : Option Symbol :=
  table.lookup? (t.scopeNames Decl.isNamespace (t.lineage owner)).reverse name

end SymbolTable

end DocBlock
