import DocBlock.Error
import DocBlock.Symbol
import DocBlock.Text.Uppercase

/-! # Names of owners and of anonymous types

A declaration is documented as a member of its owner, the innermost class, interface, enumeration,
namespace, inline object type or file around it. An inline type has no name of its own and takes one
from the declaration it is written on: `Options` for a variable `options`, with the role of the type
and the suffix `Type` or `Callback` behind it. Naming fails when there is no such declaration. -/

namespace DocBlock.Tree

/-- A dotted name without the quotes of ambient modules. -/
def unquoted (name : String) : String :=
  String.ofList (name.toList.filter (· != '"'))

/-- The dotted name of a declaration, without quotes. -/
def qualifiedName? (t : Tree) (i : NodeId) : Option String :=
  (t.symbol? i).map fun symbol => unquoted symbol.dotted

/-- A name with its first letter in upper case. -/
def capitalized (name : String) : String :=
  String.ofList (Text.capitalize name.toList)

/-- What the name of an anonymous type ends in: `Callback` when the type written on the declaration
is a function type. -/
def anonymousSuffix (t : Tree) (i : NodeId) : String :=
  if (t.decl i).annotation?.any TypeExpr.takesParameters then "Callback" else "Type"

/-- The first name among the ancestors of a node. -/
def nearestName (t : Tree) (i : NodeId) : String :=
  ((t.ancestors i).findSome? fun a => (t.decl a).name?).getD ""

/-- The name that a declaration gives to an anonymous type, before the suffix. A parameter puts the
closest name around it in front of its own. -/
def anonymousStem (t : Tree) (i : NodeId) : String :=
  match t.decl i with
  | .callable _ c => capitalized (c.name.getD "") ++ "Returns"
  | .parameter p => capitalized (t.nearestName i) ++ capitalized p.name
  | decl => capitalized (decl.name?.getD "")

/-- The name of an anonymous type written on, or below, a declaration. -/
def anonymousName (t : Tree) (i : NodeId) : Except Error String :=
  match (t.lineage i).find? fun a => (t.decl a).namesAnonymous with
  | none => .error (.unnamed t.fileName (t.decl i).kindName (t.node i).excerpt)
  | some a => .ok (t.anonymousStem a ++ t.anonymousSuffix i)

/-- A name behind its owner, when there is one that is not empty. -/
def behindOwner (owner : Option String) (name : String) : String :=
  match owner with
  | none => name
  | some owner => if owner.isEmpty then name else owner ++ "." ++ name

/-- The owner of a declaration. An ambient module is marked as a module, a file only has a name when
a directive gives it one, and an inline object type goes by its anonymous name. -/
def ownerName (t : Tree) (i : NodeId) : Except Error (Option String) :=
  match _found : (t.ancestors i).find? fun a => (t.decl a).isOwner with
  | none => .ok none
  | some a =>
    match t.decl a with
    | .objectType => do
      let owner ← t.ownerName a
      let name ← t.anonymousName a
      return some (behindOwner owner name)
    | .file moduleName => .ok moduleName
    | .namespaceDecl n =>
      .ok ((t.qualifiedName? a).map fun name => if n.external then "module:" ++ name else name)
    | _ => .ok (t.qualifiedName? a)
termination_by i
decreasing_by exact lt_of_mem_ancestors (List.mem_of_find?_eq_some _found)

/-- The name of an anonymous type behind its owner. -/
def anonymousFullName (t : Tree) (i : NodeId) : Except Error String := do
  let owner ← t.ownerName i
  let name ← t.anonymousName i
  return behindOwner owner name

end DocBlock.Tree
