import DocBlock.Synthesis.Builders

/-! # The entries of each kind of declaration

Declarations are documented in the order of the tree. Each kind of declaration has its own sequence
of facts; declarations that are documented through others, such as parameters, are passed over. -/

namespace DocBlock.Synthesis

/-- The entry of a declaration, which starts out as its hand-written comment. -/
def addOwn (t : Tree) (node : NodeId) : Synthesis Nat :=
  newEntry (.own node) ((t.handWritten? node).getD Comment.empty)

/-- The entry of the inline object type that a property belongs to. It is found by its name and
owner. -/
def findTypedef (t : Tree) (objectType : NodeId) : Synthesis (Option Nat) := do
  let name ← t.anonymousName objectType
  let owner ←
    match t.parent? objectType with
    | some declaration => (t.ownerName declaration : Except Error (Option String))
    | none => pure none
  return (← get).comments.find? "typedef" name owner

/-- A variable or property. A property of an inline object type is documented on the entry of the
type, when there is one. -/
def documentVariable (t : Tree) (table : SymbolTable) (node : NodeId) : Synthesis Unit := do
  match (t.parent? node).filter fun p => (t.decl p).isObjectType with
  | some objectType =>
    match ← findTypedef t objectType with
    | some id => addTypedefProperty t table id node
    | none => pure ()
  | none =>
    let id ← addOwn t node
    addTypedName t table id "member" node
    addDefault t id node
    addParent t id node
    addModifier t id node

/-- A function or method. -/
def documentFunction (t : Tree) (table : SymbolTable) (node : NodeId) : Synthesis Unit := do
  let id ← addOwn t node
  addName t id "function" node
  addVariation t id node
  addGeneric t id node
  match t.signature? node with
  | some s => addFromSignature t table id s
  | none => pure ()
  addParent t id node
  addModifier t id node

/-- An interface. One with nothing but call signatures is documented as callbacks; any other one has
an entry of its own and one for each signature. -/
def documentInterface (t : Tree) (table : SymbolTable) (node : NodeId) (decl : Interface) :
    Synthesis Unit := do
  let id ← addOwn t node
  let calls := t.callSignatures node
  if decl.memberCount > 0 && decl.memberCount == calls.length then
    addCallbacks t table id node calls
    edit id fun _ => Comment.empty
  else
    addName t id "interface" node
    addGeneric t id node
    addHeritage t table id node
    addParent t id node
    addSignatureEntries t table "ctorsignature" (t.constructSignatures node)
    addSignatureEntries t table "callsignature" calls
    mergeRepeated t id node

/-- A class. -/
def documentClass (t : Tree) (table : SymbolTable) (node : NodeId) : Synthesis Unit := do
  let id ← addOwn t node
  addName t id "class" node
  addVariation t id node
  addGeneric t id node
  addHeritage t table id node
  addParent t id node

/-- A constructor. -/
def documentConstructor (t : Tree) (table : SymbolTable) (node : NodeId) : Synthesis Unit := do
  let id ← addOwn t node
  ensure id "ctor"
  addVariation t id node
  addParent t id node
  match t.signature? node with
  | some s => addFromSignature t table id s
  | none => pure ()

/-- A type alias. -/
def documentAlias (t : Tree) (table : SymbolTable) (node : NodeId) : Synthesis Unit := do
  let id ← addOwn t node
  addTypedName t table id "typedef" node
  addVariation t id node
  addParent t id node

/-- An enumeration. -/
def documentEnum (t : Tree) (node : NodeId) (decl : Enum) : Synthesis Unit := do
  let id ← addOwn t node
  addName t id "enum" node
  addModifier t id node
  addParent t id node
  addEnumMembers decl.members id

/-- A namespace or an ambient module. -/
def documentNamespace (t : Tree) (node : NodeId) (decl : Namespace) : Synthesis Unit := do
  let id ← addOwn t node
  if decl.external then setName id "module" decl.name
  else
    addName t id "namespace" node
    addParent t id node
  mergeRepeated t id node

/-- Documents one declaration. -/
def document (t : Tree) (table : SymbolTable) (node : NodeId) : Synthesis Unit :=
  match t.decl node with
  | .variableDecl _ _ => documentVariable t table node
  | .callable .function _ => documentFunction t table node
  | .callable .method _ => documentFunction t table node
  | .callable .constructor _ => documentConstructor t table node
  | .interface decl => documentInterface t table node decl
  | .classDecl _ => documentClass t table node
  | .typeAlias _ => documentAlias t table node
  | .enum decl => documentEnum t node decl
  | .namespaceDecl decl => documentNamespace t node decl
  | _ => pure ()

/-- Documents some declarations one after the other. -/
def documentAll (t : Tree) (table : SymbolTable) (nodes : List NodeId) : Synthesis Unit :=
  nodes.forM (document t table)

end DocBlock.Synthesis

namespace DocBlock

/-- The pass over all declarations of a file. -/
def Tree.runPass (t : Tree) (table : SymbolTable) : Except Error Pass := do
  let ((), pass) ← (Synthesis.documentAll t table t.preorder).run {}
  return pass

/-- The entries that document the declarations of a file. -/
def Tree.collect (t : Tree) (table : SymbolTable) : Except Error Collection := do
  return (← t.runPass table).comments

end DocBlock
