import DocBlock.Comment.Collection
import DocBlock.Error
import DocBlock.Signature
import DocBlock.TypeName.Resolve

/-! # A pass over one file

A pass writes the entries of one file. Its state is the collection with three books beside it: for
each entry, in the same order, what it was made for, each sighting of a declaration that may be
repeated, and each declaration whose type has been named. The first failure ends the pass. -/

namespace DocBlock

/-- What an entry was made for. -/
inductive EntryOrigin where
  /-- The entry of a declaration itself. -/
  | own (node : NodeId)
  /-- One of the callbacks of an interface that has nothing but call signatures. -/
  | callback (node : NodeId)
  /-- A call or construct signature of an interface. -/
  | signature (node : NodeId)
  /-- The inline type `node` written on the declaration `owner`. -/
  | inline (owner node : NodeId)
  deriving DecidableEq, Inhabited, Repr

/-- A sighting of a declaration that may be repeated. -/
structure Sighting where
  /-- What the repetitions have in common. -/
  key : DeclKey
  /-- The entry of this sighting. -/
  entry : Nat
  /-- Whether repetitions are merged; they are numbered otherwise. -/
  merged : Bool
  /-- What the entry said just before. -/
  seen : Comment
  deriving DecidableEq, Inhabited, Repr

/-- The state of a pass. -/
structure Pass where
  /-- The entries written so far. -/
  comments : Collection := {}
  /-- What each entry was made for. -/
  origins : List EntryOrigin := []
  /-- The sightings so far, oldest first. -/
  sightings : List Sighting := []
  /-- The declarations whose types have been named so far, oldest first. -/
  named : List NodeId := []
  deriving Inhabited, Repr

/-- A step of a pass. -/
abbrev Synthesis := StateT Pass (Except Error)

namespace Synthesis

/-- Adds an entry and gives its position. -/
def newEntry (origin : EntryOrigin) (c : Comment) : Synthesis Nat := do
  let pass ← get
  set { pass with comments := pass.comments.push c, origins := pass.origins ++ [origin] }
  return pass.comments.size

/-- Changes an entry. -/
def edit (id : Nat) (f : Comment → Comment) : Synthesis Unit :=
  modify fun pass => { pass with comments := pass.comments.modify id f }

/-- Sets the name of the first tag of a kind, which is added when there is none. -/
def setName (id : Nat) (kind name : String) : Synthesis Unit :=
  edit id fun c => c.put kind none fun tag => { tag with name := some name }

/-- Makes sure that there is a tag of a kind. -/
def ensure (id : Nat) (kind : String) (name : Option String := none) : Synthesis Unit :=
  edit id fun c => c.put kind name fun tag => tag

end Synthesis

end DocBlock
