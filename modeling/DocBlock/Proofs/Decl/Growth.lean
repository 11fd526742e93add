import DocBlock.Proofs.Decl.Hosts

/-! # How a tree grows and how it is walked

A tree grows node by node from the tree of a file, and each node is noted with its parent as the last
child so far (`Grown`). A tree that has grown is rooted and its notes are the children that the parent
links give (`Grown.children`). The walk is a loop with a stack, on which the children of a node are put
in reverse (`Visits`); it ends, and what it visits is the recursive pre-order (`Grown.walks`). -/

namespace DocBlock

namespace Tree

variable {t : Tree} {i j p parent : Nat} {decl : Decl} {noted : NodeId → List NodeId}
  {stack order order' : List NodeId}

/-! ## Nodes of a changed tree -/

theorem node_push (t : Tree) (parent : Nat) (decl : Decl) (comment : Option String) (excerpt : String)
    (i : Nat) : (t.push parent decl comment excerpt).node i =
      if i = t.size then { parent := some parent, decl, comment, excerpt } else t.node i := by
  simp only [node, push, size, Array.getD_eq_getD_getElem?, Array.getElem?_push]
  split <;> rfl

theorem size_push (t : Tree) (parent : Nat) (decl : Decl) (comment : Option String)
    (excerpt : String) : (t.push parent decl comment excerpt).size = t.size + 1 :=
  Array.size_push _

theorem size_modifyDecl (t : Tree) (i : Nat) (f : Decl → Decl) : (t.modifyDecl i f).size = t.size :=
  Array.size_modify

theorem parent?_push (t : Tree) (parent : Nat) (decl : Decl) (comment : Option String)
    (excerpt : String) (i : Nat) : (t.push parent decl comment excerpt).parent? i =
      if i = t.size then some parent else t.parent? i := by
  rw [parent?, node_push]
  split <;> rfl

theorem parent?_modifyDecl (t : Tree) (i j : Nat) (f : Decl → Decl) :
    (t.modifyDecl i f).parent? j = t.parent? j := by
  simp only [parent?, node, modifyDecl, Array.getD_eq_getD_getElem?, Array.getElem?_modify]
  split
  · cases t.nodes[j]? <;> rfl
  · rfl

/-- A node that is added is the last child of its parent. -/
theorem children_push (t : Tree) (parent : Nat) (decl : Decl) (comment : Option String)
    (excerpt : String) (i : Nat) : (t.push parent decl comment excerpt).children i =
      t.children i ++ if i = parent then [t.size] else [] := by
  have hold : (List.range t.size).filter
      (fun j => (t.push parent decl comment excerpt).parent? j == some i) = t.children i := by
    refine List.filter_congr fun j hj => ?_
    rw [parent?_push, if_neg (Nat.ne_of_lt (List.mem_range.1 hj))]
  rw [children, size_push, List.range_succ, List.filter_append, hold, List.filter_singleton,
    parent?_push, if_pos rfl, Option.some_beq_some, beq_eq_decide, Bool.cond_decide]
  simp only [@eq_comm _ parent]

theorem children_modifyDecl (t : Tree) (i j : Nat) (f : Decl → Decl) :
    (t.modifyDecl i f).children j = t.children j := by
  simp only [children, size_modifyDecl, parent?_modifyDecl]

/-! ## Growing -/

theorem rooted_ofFile (fileName : String) (moduleName : Option String) :
    (ofFile fileName moduleName).Rooted where
  size_pos := Nat.zero_lt_one
  root := rfl
  parent _ hpos hlt := absurd hlt (Nat.not_lt_of_le hpos)

/-- The new node stands behind its parent because it stands last. -/
theorem Rooted.push (h : t.Rooted) (hparent : parent < t.size) (decl : Decl) (comment : Option String)
    (excerpt : String) : (t.push parent decl comment excerpt).Rooted where
  size_pos := by
    rw [size_push]
    omega
  root := by
    have hpos := h.size_pos
    rw [parent?_push, if_neg (by omega)]
    exact h.root
  parent i hi hsize := by
    rw [size_push] at hsize
    rw [parent?_push]
    by_cases hlast : i = t.size
    · exact ⟨parent, by omega, if_pos hlast⟩
    · rw [if_neg hlast]
      exact h.parent i hi (by omega)

theorem Rooted.modifyDecl (h : t.Rooted) (i : Nat) (f : Decl → Decl) : (t.modifyDecl i f).Rooted where
  size_pos := by
    rw [size_modifyDecl]
    exact h.size_pos
  root := by
    rw [parent?_modifyDecl]
    exact h.root
  parent j hj hsize := by
    rw [size_modifyDecl] at hsize
    rw [parent?_modifyDecl]
    exact h.parent j hj hsize

/-- A tree that has grown from the tree of a file, with the children noted for each node on the way. A
node is added below one that is there, and is noted behind the children that this one has already.
Declarations may be changed afterwards. -/
inductive Grown : Tree → (NodeId → List NodeId) → Prop
  | file (fileName : String) (moduleName : Option String) :
      Grown (ofFile fileName moduleName) fun _ => []
  | push {t : Tree} {noted : NodeId → List NodeId} {parent : NodeId} (grown : Grown t noted)
      (parent_lt : parent < t.size) (decl : Decl) (comment : Option String) (excerpt : String) :
      Grown (t.push parent decl comment excerpt)
        fun i => if i = parent then noted i ++ [t.size] else noted i
  | modifyDecl {t : Tree} {noted : NodeId → List NodeId} (grown : Grown t noted) (i : NodeId)
      (f : Decl → Decl) : Grown (t.modifyDecl i f) noted

theorem Grown.rooted (h : Grown t noted) : t.Rooted := by
  induction h with
  | file fileName moduleName => exact rooted_ofFile fileName moduleName
  | push _ hparent decl comment excerpt ih => exact ih.push hparent decl comment excerpt
  | modifyDecl _ i f ih => exact ih.modifyDecl i f

/-- The notes agree with the parent links. -/
theorem Grown.children (h : Grown t noted) (i : Nat) : noted i = t.children i := by
  induction h with
  | file fileName moduleName => rfl
  | push _ _ decl comment excerpt ih =>
    rw [children_push, ← ih]
    dsimp only
    split
    · rfl
    · exact (List.append_nil _).symm
  | modifyDecl _ j f ih => rw [children_modifyDecl, ih]

/-! ## The walk as a loop -/

/-- The nodes that a loop visits, given the children of each node and a stack with its top at the end.
Each round takes the top node from the stack, visits it and puts its children on the stack, the last one
first. -/
inductive Visits (noted : NodeId → List NodeId) : List NodeId → List NodeId → Prop
  | done : Visits noted [] []
  | round {stack order : List NodeId} {i : NodeId}
      (rest : Visits noted (stack ++ (noted i).reverse) order) :
      Visits noted (stack ++ [i]) (i :: order)

theorem Visits.unique (h : Visits noted stack order) (h' : Visits noted stack order') :
    order = order' := by
  induction h generalizing order' with
  | done =>
    generalize hstack : ([] : List NodeId) = stack at h'
    cases h' with
    | done => rfl
    | round => simp at hstack
  | @round stack order i _ ih =>
    generalize hstack : stack ++ [i] = stack' at h'
    cases h' with
    | done => simp at hstack
    | round rest' =>
      obtain ⟨rfl, heq⟩ := List.append_inj' hstack rfl
      obtain rfl := (List.cons.inj heq).1
      rw [ih rest']

/-- The stack holds, from its top down, the nodes with whose subtrees the pre-order goes on. -/
theorem Rooted.visits (h : t.Rooted) (stack : List NodeId) :
    Visits t.children stack (stack.reverse.flatMap t.below) := by
  induction hn : (stack.reverse.flatMap t.below).length using Nat.strongRecOn generalizing stack with
  | ind n ih =>
    rcases List.eq_nil_or_concat stack with rfl | ⟨stack, i, rfl⟩
    · exact .done
    · rw [List.concat_eq_append] at hn ⊢
      have hround : (stack ++ [i]).reverse.flatMap t.below =
          i :: (stack ++ (t.children i).reverse).reverse.flatMap t.below := by
        rw [List.reverse_append, List.reverse_singleton, List.singleton_append, List.flatMap_cons,
          h.below_eq, List.reverse_append, List.reverse_reverse, List.flatMap_append,
          List.cons_append]
      rw [hround] at hn ⊢
      rw [List.length_cons] at hn
      exact .round (ih _ (by omega) _ rfl)

/-! ## Lineages and positions -/

/-- The lineage of a node goes from child to parent and ends with the file. -/
theorem Rooted.lineage_spec (h : t.Rooted) (hi : i < t.size) :
    (t.lineage i).IsChain (fun j p => t.parent? j = some p) ∧ (t.lineage i).getLast? = some 0 := by
  induction i using Nat.strongRecOn with
  | ind i ih =>
    by_cases hzero : i = 0
    · have hroot : t.ancestors 0 = [] := by rw [ancestors, h.root]
      rw [hzero, lineage, hroot]
      exact ⟨.singleton 0, rfl⟩
    · obtain ⟨p, hlt, hparent⟩ := h.parent i (by omega) hi
      obtain ⟨hchain, hlast⟩ := ih p hlt (by omega)
      have hstep : t.lineage i = i :: p :: t.ancestors p := by
        rw [lineage, h.ancestors_eq hi hparent, lineage]
      rw [hstep, List.getLast?_cons_cons]
      exact ⟨.cons_cons hparent hchain, hlast⟩

/-- Above every node but the file, the last ancestor is the file. -/
theorem Rooted.getLast?_ancestors (h : t.Rooted) (hi : i < t.size) (hpos : 0 < i) :
    (t.ancestors i).getLast? = some 0 := by
  have hlast := (h.lineage_spec hi).2
  rw [lineage, List.getLast?_cons] at hlast
  cases hancestors : (t.ancestors i).getLast? with
  | none =>
    rw [hancestors] at hlast
    exact absurd (Option.some.inj hlast) (Nat.ne_of_gt hpos)
  | some last =>
    rw [hancestors] at hlast
    exact hlast

/-- Each node of a lineage stands before the one that it follows. -/
theorem pairwise_lineage (t : Tree) (i : Nat) : (t.lineage i).Pairwise (· > ·) := by
  induction i using Nat.strongRecOn with
  | ind i ih =>
    rw [lineage, List.pairwise_cons]
    refine ⟨fun a ha => lt_of_mem_ancestors ha, ?_⟩
    rw [ancestors]
    split
    · exact .nil
    · rename_i p _
      split
      · rename_i hlt
        exact ih p hlt
      · exact .nil

theorem Rooted.idxOf_lt_of_mem_ancestors (h : t.Rooted) (hj : j < t.size) (hi : i ∈ t.ancestors j) :
    t.preorder.idxOf i < t.preorder.idxOf j := by
  obtain ⟨done, rest, hsplit, hnot⟩ := List.eq_append_cons_of_mem (h.mem_preorder.2 hj)
  have hdone : i ∈ done := h.mem_of_mem_ancestors hsplit hi
  have hself : (done ++ j :: rest).idxOf j = done.length := by
    rw [List.idxOf_append_of_notMem hnot, List.idxOf_cons_self, Nat.add_zero]
  rw [hsplit, hself, List.idxOf_append_of_mem hdone]
  exact List.idxOf_lt_length_of_mem hdone

/-- Walking a tree that has grown. The loop over the noted children, started with the file, ends with
the pre-order and nothing else; this is the recursive one, where a node comes before the pre-orders of its
children, in their order. It holds every node once and every node before its children. From a node up, each
is the parent of the one that it follows and stands before it; the last ancestor of every node but the file
is the file. -/
theorem Grown.walks (h : Grown t noted) :
    (∀ order, Visits noted [0] order ↔ order = t.preorder) ∧
      (t.preorder = t.below 0 ∧ ∀ i, t.below i = i :: (noted i).flatMap t.below) ∧
      (t.preorder.Nodup ∧ ∀ i, i ∈ t.preorder ↔ i < t.size) ∧
      (∀ p, ∀ i ∈ noted p, t.preorder.idxOf p < t.preorder.idxOf i) ∧
      ∀ i < t.size, (t.lineage i).Pairwise (· > ·) ∧
        ((t.lineage i).IsChain fun j p => t.parent? j = some p) ∧
        (0 < i → (t.ancestors i).getLast? = some 0) := by
  have hrooted := h.rooted
  have hnoted : noted = t.children := funext h.children
  have hvisits : Visits noted [0] t.preorder := by
    rw [hnoted, hrooted.preorder_eq_below]
    simpa using hrooted.visits [0]
  refine ⟨fun order => ⟨fun horder => horder.unique hvisits, ?_⟩, ⟨hrooted.preorder_eq_below, ?_⟩,
    ⟨hrooted.nodup_preorder, fun i => hrooted.mem_preorder⟩, ?_, ?_⟩
  · rintro rfl
    exact hvisits
  · rw [hnoted]
    exact hrooted.below_eq
  · intro p i hi
    rw [hnoted] at hi
    obtain ⟨hsize, hparent⟩ := mem_children.1 hi
    refine hrooted.idxOf_lt_of_mem_ancestors hsize ?_
    rw [hrooted.ancestors_eq hsize hparent]
    exact List.mem_cons_self
  · intro i hi
    exact ⟨t.pairwise_lineage i, (hrooted.lineage_spec hi).1, hrooted.getLast?_ancestors hi⟩

/-- A tree whose nodes are not added in the order in which they are walked. -/
def scattered : Tree :=
  (ofFile "a.ts" none).push 0 (.classDecl { name := "Box" }) none ""
    |>.push 0 (.callable .function { name := some "open" }) none ""
    |>.push 1 (.callable .method { name := some "fill" }) none ""
    |>.push 3 (.parameter { name := "by" }) none ""
    |>.push 1 (.variableDecl .member { name := "size" }) none ""
    |>.push 2 (.parameter { name := "box" }) none ""

theorem Grown.walks_scattered : ∃ noted, Grown scattered noted ∧
    (∀ order, Visits noted [0] order ↔ order = [0, 1, 3, 4, 5, 2, 6]) ∧
    scattered.preorder.Nodup ∧ scattered.preorder.idxOf 1 < scattered.preorder.idxOf 5 ∧
    (scattered.lineage 4).Pairwise (· > ·) ∧ (scattered.ancestors 4).getLast? = some 0 := by
  have hgrown := Grown.file "a.ts" none
    |>.push (show 0 < size _ by decide) (.classDecl { name := "Box" }) none ""
    |>.push (show 0 < size _ by decide) (.callable .function { name := some "open" }) none ""
    |>.push (show 1 < size _ by decide) (.callable .method { name := some "fill" }) none ""
    |>.push (show 3 < size _ by decide) (.parameter { name := "by" }) none ""
    |>.push (show 1 < size _ by decide) (.variableDecl .member { name := "size" }) none ""
    |>.push (show 2 < size _ by decide) (.parameter { name := "box" }) none ""
  obtain ⟨hvisits, -, ⟨hnodup, -⟩, hbefore, hlineage⟩ := hgrown.walks
  have horder : scattered.preorder = [0, 1, 3, 4, 5, 2, 6] := by decide
  obtain ⟨hpairwise, -, hlast⟩ := hlineage 4 (by decide)
  exact ⟨_, hgrown, fun order => horder ▸ hvisits order, hnodup, hbefore 1 5 (by decide), hpairwise,
    hlast (by decide)⟩

end Tree

end DocBlock
