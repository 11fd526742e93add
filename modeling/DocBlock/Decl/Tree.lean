import DocBlock.Decl.Basic

/-! # Declaration trees

The declarations of one source file, as nodes that know their parent. A node is named by its
position, and parents stand before their children, so the children of a node are the later nodes
that name it as their parent. The file itself is node `0`. -/

namespace DocBlock

/-- A node of a declaration tree. -/
structure Node where
  /-- The node that the declaration stands in. -/
  parent : Option NodeId := none
  /-- The declaration. -/
  decl : Decl
  /-- The documentation block directly before the declaration, as written. -/
  comment : Option String := none
  /-- The first line of the declaration, for reports. -/
  excerpt : String := ""
  deriving Inhabited, Repr

/-- The declarations of one source file. -/
structure Tree where
  /-- The name of the file. -/
  fileName : String
  /-- The nodes, parents before children. -/
  nodes : Array Node
  deriving Inhabited, Repr

namespace Tree

/-- The tree of a file without declarations. -/
def ofFile (fileName : String) (moduleName : Option String) : Tree :=
  { fileName, nodes := #[{ decl := .file moduleName }] }

/-- How many nodes there are. -/
def size (t : Tree) : Nat :=
  t.nodes.size

/-- The node at a position. A position that is not taken reads as an empty file of its own. -/
def node (t : Tree) (i : NodeId) : Node :=
  t.nodes.getD i { decl := .file none }

/-- The declaration at a position. -/
def decl (t : Tree) (i : NodeId) : Decl :=
  (t.node i).decl

/-- The parent of a node. -/
def parent? (t : Tree) (i : NodeId) : Option NodeId :=
  (t.node i).parent

/-- Adds a node as the last child of `parent`; its position is the former size. -/
def push (t : Tree) (parent : NodeId) (decl : Decl) (comment : Option String) (excerpt : String) :
    Tree :=
  { t with nodes := t.nodes.push { parent := some parent, decl, comment, excerpt } }

/-- Changes the declaration at a position. -/
def modifyDecl (t : Tree) (i : NodeId) (f : Decl → Decl) : Tree :=
  { t with nodes := t.nodes.modify i fun node => { node with decl := f node.decl } }

/-! ## Walking the tree -/

/-- The children of a node, in order. -/
def children (t : Tree) (i : NodeId) : List NodeId :=
  (List.range t.size).filter fun j => t.parent? j == some i

/-- The strict ancestors of a node, innermost first. A parent always stands before its child. -/
def ancestors (t : Tree) (i : NodeId) : List NodeId :=
  match t.parent? i with
  | none => []
  | some p => if p < i then p :: t.ancestors p else []
termination_by i

/-- A node followed by its ancestors. -/
def lineage (t : Tree) (i : NodeId) : List NodeId :=
  i :: t.ancestors i

/-- The nodes on a stack and everything below them, each node before its children. The first
argument bounds the number of nodes. -/
def walk (t : Tree) : Nat → List NodeId → List NodeId
  | 0, _ => []
  | _ + 1, [] => []
  | n + 1, i :: stack => i :: walk t n (t.children i ++ stack)

/-- All nodes, each one before its children and these in order. -/
def preorder (t : Tree) : List NodeId :=
  t.walk t.size [0]

/-- An ancestor stands before its descendant. -/
theorem lt_of_mem_ancestors {t : Tree} {i a : NodeId} (h : a ∈ t.ancestors i) : a < i := by
  induction i using Nat.strongRecOn with
  | ind i ih =>
    rw [ancestors] at h
    split at h
    · simp at h
    · rename_i p _
      split at h
      · rename_i hp
        rcases List.mem_cons.1 h with rfl | h
        · exact hp
        · exact Nat.lt_trans (ih p hp h) hp
      · simp at h

end Tree

end DocBlock
