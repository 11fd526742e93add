import DocBlock.Naming
import DocBlock.TypeName.Format

/-! # Resolving type annotations

The documentation name of the type of a declaration: what its annotation says, or else what a
literal initial value implies, or else `*`. References are resolved to dotted names, and inline
types are named; the nodes of the inline types are handed back, since they need entries of their
own. -/

namespace DocBlock

/-- The broad kinds of types. -/
inductive TypeKind where
  /-- Keywords and literal types. -/
  | intrinsic
  | typeParameter
  /-- Inline object and function types. -/
  | anonymous
  | union
  /-- Named types, arrays and all other types. -/
  | reference
  deriving DecidableEq, Inhabited, Repr

/-- A type as the program knows it. -/
structure ResolvedType where
  /-- Its broad kind. -/
  kind : TypeKind
  /-- Its source spelling. -/
  display : String
  /-- The symbol of the declaration it refers to. -/
  symbol : Option Symbol := none
  deriving DecidableEq, Inhabited, Repr

/-- A documentation name, with the inline types that it names. -/
structure TypeNameResult where
  /-- The name. -/
  name : String := ""
  /-- The nodes of the inline types, from left to right. -/
  anonymous : List NodeId := []
  deriving DecidableEq, Inhabited, Repr

namespace Tree

/-- Whether a name refers to a type parameter in scope; of a dotted name only the first part
counts. -/
def isTypeParameter (t : Tree) (owner : NodeId) (name : String) : Bool :=
  let head := String.ofList (name.toList.takeWhile (· != '.'))
  (t.lineage owner).any fun i => (t.decl i).typeParams.contains head

/-- The type that an annotation on a declaration denotes. -/
def typeOfExpr (t : Tree) (table : SymbolTable) (owner : NodeId) (type : TypeExpr) : ResolvedType :=
  match type with
  | .intrinsic _ => { kind := .intrinsic, display := type.text }
  | .reference name _ =>
    if t.isTypeParameter owner name then { kind := .typeParameter, display := type.text }
    else { kind := .reference, display := type.text, symbol := table.resolve? t owner name }
  | .object _ | .function _ => { kind := .anonymous, display := type.text }
  | .union _ => { kind := .union, display := type.text }
  | .array _ | .query _ | .other _ => { kind := .reference, display := type.text }

/-- The type of a declaration: that of its annotation, or that of its literal initial value. -/
def typeOf? (t : Tree) (table : SymbolTable) (i : NodeId) : Option ResolvedType :=
  match (t.decl i).annotation? with
  | some type => some (t.typeOfExpr table i type)
  | none => do
    let literal ← (← (t.decl i).initializer?).literal
    return { kind := .intrinsic, display := literal.typeName }

/-- Generic arguments in angle brackets; none at all for an empty list. -/
def angled (args : List String) : String :=
  if args.isEmpty then "" else "<" ++ Text.joinStrings ", " args ++ ">"

mutual

/-- The documentation name of an annotation. A reference without arguments takes the type parameters
of the declaration it is written on. -/
def resolveExpr (t : Tree) (table : SymbolTable) (owner : NodeId) :
    TypeExpr → Except Error TypeNameResult
  | .intrinsic text => .ok { name := text }
  | .query text => .ok { name := TypeName.format text }
  | .other text => .ok { name := TypeName.format text }
  | .object node => do
    return { name := TypeName.format (← t.anonymousFullName owner), anonymous := [node] }
  | .function node => do
    return { name := TypeName.format (← t.anonymousFullName owner), anonymous := [node] }
  | .union members => do
    let results ← t.resolveExprs table owner members
    return { name := Text.joinStrings " | " (results.map (·.name))
             anonymous := results.flatMap (·.anonymous) }
  | .array element => do
    let result ← t.resolveExpr table owner element
    let name := if element.isUnion then "(" ++ result.name ++ ")[]" else result.name ++ "[]"
    return { result with name := TypeName.format name }
  | .reference name args =>
    if t.isTypeParameter owner name then
      .ok { name := (TypeExpr.reference name args).text }
    else do
      let base := (table.resolve? t owner name).elim name fun symbol => unquoted symbol.dotted
      let results ← t.resolveExprs table owner args
      let written := if args.isEmpty then (t.decl owner).typeParams else results.map (·.name)
      return { name := TypeName.format (base ++ angled written)
               anonymous := results.flatMap (·.anonymous) }

/-- The documentation names of several annotations. -/
def resolveExprs (t : Tree) (table : SymbolTable) (owner : NodeId) :
    List TypeExpr → Except Error (List TypeNameResult)
  | [] => .ok []
  | type :: types => do
    let result ← t.resolveExpr table owner type
    let results ← t.resolveExprs table owner types
    return result :: results

end

/-- The documentation name of a type that has no annotation. -/
def resolveInferred (type : ResolvedType) : String :=
  match type.kind with
  | .intrinsic | .typeParameter => type.display
  | _ => TypeName.format type.display

/-- The documentation name of an annotation, or else of the type that is inferred, or else the
wildcard `*`. -/
def resolveTypeName (t : Tree) (table : SymbolTable) (owner : NodeId) (type : Option TypeExpr)
    (inferred : Option ResolvedType) : Except Error TypeNameResult :=
  match type with
  | some type => t.resolveExpr table owner type
  | none => .ok { name := inferred.elim "*" resolveInferred }

end Tree

end DocBlock
