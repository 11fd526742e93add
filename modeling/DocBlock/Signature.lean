import DocBlock.Comment.Reader
import DocBlock.Decl.Tree

/-! # Signatures and documentation

What a callable declaration takes and gives back, and the prose that documents a declaration. A
parameter is documented by a `param` tag of the comment on the declaration it belongs to. -/

namespace DocBlock

/-- A parameter name without the decorations that hand-written comments use: brackets around it,
repeat markers before it and a default value after it. -/
def bareParamName (name : String) : String :=
  let opened := name.toList.dropWhile (· == '[')
  let closed := (opened.reverse.dropWhile (· == ']')).reverse
  String.ofList (dropMarkers closed.length (closed.takeWhile (· != '=')))
where
  /-- A text without the repeat markers at its start; the first argument bounds their number. -/
  dropMarkers : Nat → List Char → List Char
    | 0, cs => cs
    | n + 1, cs =>
      match Text.after? "...".toList cs with
      | some rest => dropMarkers n rest
      | none => cs

/-- A description that is not blank. -/
def presentDescription? (description : Option String) : Option String :=
  description.filter fun d => !Text.isAllBlank d.toList

/-- The call or construct signature of a declaration. -/
structure Signature where
  /-- The declaration that has the signature. -/
  declaration : NodeId
  /-- The nodes of the parameters. -/
  parameters : List NodeId
  /-- The annotated type of the result. -/
  returnType : Option TypeExpr
  /-- Whether a call gives a value. -/
  returnsValue : Bool
  /-- The prose of the declaration. -/
  documentation : Option String
  deriving Inhabited, Repr

namespace Tree

/-- The hand-written comment of a declaration. -/
def handWritten? (t : Tree) (i : NodeId) : Option Comment :=
  (t.node i).comment.map Comment.ofString

/-- The prose that documents a declaration. -/
def documentation? (t : Tree) (i : NodeId) : Option String :=
  match t.decl i with
  | .parameter p => do
    let comment ← t.handWritten? (← t.parent? i)
    let tag ← comment.tags.find? fun tag =>
      tag.kind == "param" && tag.name.any fun name => bareParamName name == p.name
    presentDescription? tag.description
  | _ => do presentDescription? (← t.handWritten? i).description

/-- Whether a call gives a value: what the annotation says, or else what the body does. A
constructor gives none. -/
def givesValue : CallableRole → Callable → Bool
  | .constructor, _ => false
  | _, c => c.returnType.elim c.returnsValue fun type => !type.isVoid

/-- The signature of a callable declaration. -/
def signature? (t : Tree) (i : NodeId) : Option Signature :=
  match t.decl i with
  | .callable role c =>
    some
      { declaration := i
        parameters := (t.children i).filter fun j => (t.decl j).isParameter
        returnType := c.returnType
        returnsValue := givesValue role c
        documentation := t.documentation? i }
  | _ => none

/-- The signatures of the members with a given role. -/
def memberSignatures (t : Tree) (i : NodeId) (role : CallableRole) : List Signature :=
  (t.children i).filterMap fun j =>
    match t.decl j with
    | .callable r _ => if r = role then t.signature? j else none
    | _ => none

/-- The signatures with which a declaration can be called: its own for an inline function type, else
those of its members. -/
def callSignatures (t : Tree) (i : NodeId) : List Signature :=
  if (t.decl i).isFunctionType then (t.signature? i).toList else t.memberSignatures i .callSignature

/-- The signatures with which a declaration can be constructed. -/
def constructSignatures (t : Tree) (i : NodeId) : List Signature :=
  t.memberSignatures i .constructSignature

end Tree

end DocBlock
