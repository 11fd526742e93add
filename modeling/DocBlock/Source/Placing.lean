import DocBlock.Decl.Tree
import DocBlock.Source.Form

/-! # From written forms to declaration trees

The declarations of a module become the nodes of a tree. Every node is added before the nodes of its
types, parameters and members, and an inline type is a child of the node whose annotation it stands
in. -/

namespace DocBlock.Source

/-- A change of a tree that gives a result. -/
abbrev Placing := StateM Tree

namespace Placing

/-- Adds a declaration as the last child of a node. -/
def add (parent : NodeId) (origin : Origin) (decl : Decl) : Placing NodeId := fun t =>
  (t.size, t.push parent decl origin.doc origin.excerpt)

/-- Gives a node its type annotation. -/
def annotate (node : NodeId) (type : TypeExpr) : Placing Unit :=
  modify fun t => t.modifyDecl node (Decl.annotate type)

/-- Gives a node its heritage clauses. -/
def inherit (node : NodeId) (heritage : List HeritageClause) : Placing Unit :=
  modify fun t => t.modifyDecl node (Decl.inherit heritage)

/-- The name of a parameter that is taken apart: it is named by its position. -/
def placeholder (index : Nat) : String :=
  "__" ++ toString index

/-! ## Types, parameters and members -/

mutual

/-- Adds the inline types of a type below their owner and gives the annotation. -/
def type (owner : NodeId) : TypeForm → Placing TypeExpr
  | .word text => pure (.intrinsic text)
  | .named name args => do return .reference name (← types owner args)
  | .array element => do return .array (← type owner element)
  | .union members => do return .union (← types owner members)
  | .query text => pure (.query text)
  | .other text => pure (.other text)
  | .object origin members => do
    let node ← add owner origin .objectType
    typeMembers node members
    return .object node
  | .function origin typeParams parameters result => do
    let node ← add owner origin (.callable .functionType { typeParams })
    params node 0 parameters
    let result ← type node result
    annotate node result
    return .function node

/-- The annotations of several types. -/
def types (owner : NodeId) : List TypeForm → Placing (List TypeExpr)
  | [] => pure []
  | form :: forms => do
    let first ← type owner form
    return first :: (← types owner forms)

/-- Annotates a node with a type, if there is one. -/
def annotation (node : NodeId) : Option TypeForm → Placing Unit
  | none => pure ()
  | some form => do
    let result ← type node form
    annotate node result

/-- Adds a parameter, given its position. -/
def param (parent : NodeId) (index : Nat) : ParamForm → Placing Unit
  | .mk origin shape form => do
    let node ← add parent origin (.parameter {
      name := shape.name.elim (placeholder index) Word.text
      initializer := shape.initializer
      rest := shape.rest
      optional := shape.optional })
    annotation node form

/-- Adds parameters from a position on. -/
def params (parent : NodeId) (index : Nat) : List ParamForm → Placing Unit
  | [] => pure ()
  | form :: forms => do
    param parent index form
    params parent (index + 1) forms

/-- Adds a member of an interface or object type. Index signatures are not declarations. -/
def typeMember (parent : NodeId) : MemberForm → Placing Unit
  | .property origin name optional form => do
    let node ← add parent origin (.variableDecl .member { name, optional })
    annotation node form
  | .callable origin role name typeParams parameters result => do
    let node ← add parent origin (.callable role.callableRole { name, typeParams })
    params node 0 parameters
    annotation node result
  | .accessor origin name setter => do
    discard (add parent origin (.accessor name setter))
  | .index => pure ()

/-- Adds the members of an interface or object type. -/
def typeMembers (parent : NodeId) : List MemberForm → Placing Unit
  | [] => pure ()
  | form :: forms => do
    typeMember parent form
    typeMembers parent forms

end

/-! ## Declarations -/

/-- Adds a function or method. -/
def function (parent : NodeId) (origin : Origin) (role : CallableRole) (name : String)
    (modifiers : Modifiers) (form : FunctionForm) : Placing Unit := do
  let node ← add parent origin (.callable role {
    name := some name
    typeParams := form.typeParams
    returnsValue := (form.body.map Code.anyReturnsValue).getD false
    modifiers })
  params node 0 form.params
  annotation node form.result

/-- The annotation of an inherited type. -/
def inherited (owner : NodeId) (form : HeritageForm) : Placing TypeExpr := do
  return .reference form.name (← types owner form.args)

/-- Adds a class member. -/
def classMember (parent : NodeId) : ClassMemberForm → Placing Unit
  | .constructor origin access parameters => do
    let node ← add parent origin (.callable .constructor { modifiers := { access } })
    params node 0 parameters
  | .method origin name modifiers form => function parent origin .method name modifiers form
  | .accessor origin name setter => discard (add parent origin (.accessor name setter))
  | .property origin decl form => do
    let node ← add parent origin (.variableDecl .member { decl with type := none })
    annotation node form

/-- Adds a class. -/
def classDecl (parent : NodeId) (origin : Origin) (name : String) (form : ClassForm) :
    Placing Unit := do
  let node ← add parent origin (.classDecl { name, typeParams := form.typeParams })
  let extended ← form.parent.toList.mapM (inherited node)
  let implemented ← form.interfaces.mapM (inherited node)
  let clause (kind : HeritageKind) (types : List TypeExpr) : List HeritageClause :=
    if types.isEmpty then [] else [{ kind, types }]
  inherit node (clause .extends_ extended ++ clause .implements_ implemented)
  form.members.forM (classMember node)

/-- Adds an interface. -/
def interface (parent : NodeId) (origin : Origin) (name : String) (typeParams : List String)
    (parents : List HeritageForm) (members : List MemberForm) : Placing Unit := do
  let node ← add parent origin (.interface { name, typeParams, memberCount := members.length })
  let extended ← parents.mapM (inherited node)
  inherit node (if extended.isEmpty then [] else [{ kind := .extends_, types := extended }])
  typeMembers node members

mutual

/-- Adds a declaration of a file or namespace. -/
def item (parent : NodeId) : Item → Placing Unit
  | .variable origin name initializer form => do
    let node ← add parent origin (.variableDecl .standalone { name, initializer })
    annotation node form
  | .function origin name form => function parent origin .function name {} form
  | .classDecl origin name form => classDecl parent origin name form
  | .interface origin name typeParams parents members =>
    interface parent origin name typeParams parents members
  | .typeAlias origin name typeParams form => do
    let node ← add parent origin (.typeAlias { name, typeParams })
    annotation node (some form)
  | .enum origin name members => discard (add parent origin (.enum { name, members }))
  | .namespaceDecl origin name external forms => do
    let node ← add parent origin (.namespaceDecl { name, external })
    items node forms
  | .exportAssignment origin => discard (add parent origin .exportAssignment)

/-- Adds the declarations of a file or namespace. -/
def items (parent : NodeId) : List Item → Placing Unit
  | [] => pure ()
  | form :: forms => do
    item parent form
    items parent forms

end

end Placing

/-- The declaration tree of a file. -/
def ModuleForm.toTree (fileName : String) (form : ModuleForm) : Tree :=
  ((Placing.items 0 form.items).run (Tree.ofFile fileName form.moduleName)).2

end DocBlock.Source
