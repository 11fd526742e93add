import DocBlock.Synthesis.Pass

/-! # Tags and the facts they are built from

Each function writes one kind of fact about a declaration into an entry. All of them go through the
look-up that adds a tag only when it is missing, so hand-written tags are enriched in place.

The type of a declaration may hold inline types, each of which gets an entry of its own, with
parameters whose types may hold inline types again. The depth of that recursion is bounded by the
number of nodes. -/

namespace DocBlock.Synthesis

/-! ## Owners -/

/-- `memberof`: the owner of the declaration. -/
def addParent (t : Tree) (id : Nat) (node : NodeId) : Synthesis Unit := do
  if (t.parent? node).isSome then
    match ← t.ownerName node with
    | some owner => setName id "memberof" owner
    | none => pure ()

/-! ## Types and parameters -/

/-- How a parameter is written in its tag. -/
def renderParam (p : Parameter) : String :=
  let name := if p.rest then "..." ++ p.name else p.name
  match p.initializer with
  | some init => "[" ++ name ++ "=" ++ init.text ++ "]"
  | none => if p.optional then "[" ++ name ++ "]" else name

/-- Whether a parameter may be left out. -/
def isOptionalParam (p : Parameter) : Bool :=
  p.optional || p.initializer.isSome

/-- `param`: one parameter, given how types are named. -/
def addParam (t : Tree) (typeFor : NodeId → Synthesis String) (id : Nat) (node : NodeId) :
    Synthesis Unit := do
  match t.decl node with
  | .parameter p =>
    let type ← typeFor node
    let documentation := t.documentation? node
    edit id fun c => c.putParam p.name p.rest (isOptionalParam p) fun tag =>
      { tag with
        name := some (renderParam p)
        type := some type
        description := documentation.or tag.description }
  | _ => pure ()

/-- The description, the `param` tags and the `returns` tag of a signature, given how types are
named. -/
def addSignature (t : Tree) (typeFor : NodeId → Synthesis String) (id : Nat) (s : Signature) :
    Synthesis Unit := do
  match s.documentation with
  | some documentation => edit id fun c => { c with description := some documentation }
  | none => pure ()
  s.parameters.forM (addParam t typeFor id)
  if s.returnsValue then
    let type ← typeFor s.declaration
    edit id fun c => c.put "returns" none fun tag => { tag with type := some type }

/-- The entry of an inline type written on a declaration: a `callback` for a function type, a
`typedef` for any other. -/
def addInline (t : Tree) (typeFor : NodeId → Synthesis String) (node inline : NodeId) :
    Synthesis Unit := do
  let name ← t.anonymousName node
  let id ← newEntry (.inline node inline) Comment.empty
  addParent t id node
  if (t.decl inline).isFunctionType then
    ensure id "callback" (some name)
    match t.signature? inline with
    | some s => addSignature t typeFor id s
    | none => pure ()
  else
    edit id fun c => c.put "typedef" (some name) fun tag => { tag with type := some "Object" }

/-- The name of a type as the tag of the declaration shows it: a parameter that takes all remaining
arguments repeats its type. -/
def shownType (decl : Decl) (name : String) : String :=
  match decl with
  | .parameter p => if p.rest then TypeName.format ("..." ++ name) else name
  | _ => name

/-- Records that the type of a declaration has been named. -/
def recordNamed (node : NodeId) : Synthesis Unit :=
  modify fun pass => { pass with named := pass.named ++ [node] }

/-- The documentation name of the type of a declaration, with entries for the inline types in it.
The first argument bounds the depth of inline types inside inline types. -/
def typeWithin (t : Tree) (table : SymbolTable) : Nat → NodeId → Synthesis String
  | 0, _ => throw (.circular t.fileName)
  | depth + 1, node => do
    let decl := t.decl node
    let result ← t.resolveTypeName table node decl.annotation? (t.typeOf? table node)
    recordNamed node
    result.anonymous.forM (addInline t (typeWithin t table depth) node)
    return shownType decl result.name

/-- The documentation name of the type of a declaration, with entries for the inline types in it. -/
def typeFor (t : Tree) (table : SymbolTable) (node : NodeId) : Synthesis String :=
  typeWithin t table t.size node

/-- The facts of a signature. -/
def addFromSignature (t : Tree) (table : SymbolTable) (id : Nat) (s : Signature) : Synthesis Unit :=
  addSignature t (typeFor t table) id s

/-! ## Names and values -/

/-- Sets the tag that says what a declaration is to its name. -/
def addName (t : Tree) (id : Nat) (kind : String) (node : NodeId) : Synthesis Unit :=
  setName id kind ((t.decl node).name?.getD "")

/-- Sets the tag that says what a declaration is to its name and its declared or inferred type. A
literal initial value becomes the `default` of a member; elsewhere it is written behind the name. -/
def addTypedName (t : Tree) (table : SymbolTable) (id : Nat) (kind : String) (node : NodeId) :
    Synthesis Unit := do
  let decl := t.decl node
  let name := decl.name?.getD ""
  let literal := decl.initializer?.filter fun init => init.literal.isSome
  let type ←
    if decl.annotation?.isSome || decl.initializer?.isSome then some <$> typeFor t table node
    else pure none
  let written :=
    match literal with
    | some init => if kind == "member" then name else name ++ "=" ++ init.text
    | none => name
  edit id fun c => c.put kind none fun tag =>
    { tag with name := some written, type := type.or tag.type }
  match literal with
  | some init => if kind == "member" then setName id "default" init.text
  | none => pure ()

/-- `default`: the initial value, when no tag gives one already. -/
def addDefault (t : Tree) (id : Nat) (node : NodeId) : Synthesis Unit := do
  match (t.decl node).initializer? with
  | some init =>
    edit id fun c =>
      if c.hasTag "default" none then c
      else c.put "default" none fun tag => { tag with name := some init.text }
  | none => pure ()

/-- The type parameters that document a declaration: its own, or for a function or method without
any those of the class or interface around it. -/
def genericParams (t : Tree) (node : NodeId) : List String :=
  let decl := t.decl node
  match decl with
  | .callable .function c | .callable .method c =>
    if c.typeParams.isEmpty then
      ((t.ancestors node).find? fun a => (t.decl a).isClassLike).elim [] fun a => (t.decl a).typeParams
    else c.typeParams
  | _ => decl.typeParams

/-- `generic`: the type parameters. -/
def addGeneric (t : Tree) (id : Nat) (node : NodeId) : Synthesis Unit := do
  let params := genericParams t node
  if !params.isEmpty then setName id "generic" (Text.joinStrings ", " params)

/-- The access level and `static`, which interface members do not have, and `instance` for every
member of a class or interface. -/
def addModifier (t : Tree) (id : Nat) (node : NodeId) : Synthesis Unit := do
  let modifiers := (t.decl node).modifiers
  let parent := (t.parent? node).map t.decl
  if !parent.any Decl.isInterface then
    match modifiers.access with
    | some access => ensure id access.keyword
    | none => pure ()
    if modifiers.isStatic then ensure id "static"
  if parent.any Decl.isClassLike then ensure id "instance"

/-! ## Repeated declarations -/

/-- The key of a declaration. One without a name goes by its owner. -/
def keyOf (t : Tree) (node : NodeId) : Except Error DeclKey := do
  let owner ← t.ownerName node
  return { owner, name := (t.decl node).name?.getD (owner.getD "") }

/-- Records a sighting of a declaration that may be repeated. -/
def recordSighting (key : DeclKey) (id : Nat) (merged : Bool) : Synthesis Unit :=
  modify fun pass =>
    { pass with
      sightings := pass.sightings ++ [{ key, entry := id, merged, seen := pass.comments.get id }] }

/-- Numbers a repeated declaration with a `variation` tag. -/
def addVariation (t : Tree) (id : Nat) (node : NodeId) : Synthesis Unit := do
  let key ← keyOf t node
  recordSighting key id false
  let pass ← get
  let (comments, number) := pass.comments.count key
  set { pass with comments }
  match number with
  | some n => setName id "variation" (toString n)
  | none => pure ()

/-- Merges a repeated declaration into the entry of the first one. -/
def mergeRepeated (t : Tree) (id : Nat) (node : NodeId) : Synthesis Unit := do
  let key ← keyOf t node
  recordSighting key id true
  let pass ← get
  let (comments, canonical) := pass.comments.enroll key id
  set { pass with comments := canonical.elim comments (comments.merge id) }

/-! ## Classes, interfaces and enumerations -/

/-- The tag for the types of a heritage clause. -/
def heritageTag : HeritageKind → String
  | .extends_ => "augments"
  | .implements_ => "implements"

/-- `augments` for the types that are extended, `implements` for those that are implemented. -/
def addHeritage (t : Tree) (table : SymbolTable) (id : Nat) (node : NodeId) : Synthesis Unit :=
  (t.decl node).heritage.forM fun clause =>
    clause.types.forM fun type => do
      let result ← t.resolveTypeName table node (some type) none
      ensure id (heritageTag clause.kind) (some result.name)

/-- One `callback` entry for each call signature of an interface, made from a copy of the entry of
the interface. -/
def addCallbacks (t : Tree) (table : SymbolTable) (id : Nat) (node : NodeId)
    (signatures : List Signature) : Synthesis Unit :=
  signatures.forM fun s => do
    let sibling ← newEntry (.callback s.declaration) ((← get).comments.get id)
    addName t sibling "callback" node
    addGeneric t sibling node
    addFromSignature t table sibling s
    addParent t sibling node
    addVariation t sibling node

/-- One entry of the given kind for each call or construct signature of an interface. -/
def addSignatureEntries (t : Tree) (table : SymbolTable) (kind : String)
    (signatures : List Signature) : Synthesis Unit :=
  signatures.forM fun s => do
    let linked ← newEntry (.signature s.declaration) Comment.empty
    ensure linked kind
    addGeneric t linked s.declaration
    addFromSignature t table linked s
    addParent t linked s.declaration
    addVariation t linked s.declaration

/-- `property`: the members of an enumeration, with their values where these are literal. -/
def addEnumMembers (members : List EnumMember) (id : Nat) : Synthesis Unit :=
  members.forM fun member =>
    edit id fun c => c.put "property" (some member.name) fun tag =>
      match member.initializer.filter fun init => init.literal.isSome with
      | some init => { tag with name := some (member.name ++ "=" ++ init.text) }
      | none => tag

/-- `property`: a property of an inline object type, on the entry of that type. -/
def addTypedefProperty (t : Tree) (table : SymbolTable) (id : Nat) (node : NodeId) :
    Synthesis Unit := do
  let decl := t.decl node
  let type ← if decl.annotation?.isSome then some <$> typeFor t table node else pure none
  edit id fun c => c.put "property" (some (decl.name?.getD "")) fun tag =>
    { tag with type := type.or tag.type }

end DocBlock.Synthesis
