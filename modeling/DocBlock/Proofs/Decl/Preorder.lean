import Mathlib.Data.List.Nodup
import Mathlib.Data.List.Perm.Basic
import DocBlock.Decl.Tree

/-! # The order of a declaration tree

In a rooted tree every node but the file stands behind its parent. The walk over the stack gives what
stands below each node of the stack (`walk_eq_take`), and the nodes below a node are those that have it
in their lineage (`mem_below`). So the pre-order of a rooted tree holds each node exactly once
(`nodup_preorder`, `mem_preorder`). -/

namespace DocBlock.Tree

variable {t : Tree} {i j k : Nat}

/-- A tree whose nodes all stand in the file, each one behind its parent. -/
structure Rooted (t : Tree) : Prop where
  size_pos : 0 < t.size
  root : t.parent? 0 = none
  parent : ∀ i : Nat, 0 < i → i < t.size → ∃ p : Nat, p < i ∧ t.parent? i = some p

/-! ## Lineages -/

theorem decl_of_size_le (h : t.size ≤ i) : t.decl i = .file none := by
  rw [decl, node, Array.getD_eq_getD_getElem?, Array.getElem?_eq_none h]
  rfl

theorem mem_children : j ∈ t.children i ↔ j < t.size ∧ t.parent? j = some i := by
  simp [children]

namespace Rooted

theorem lt_of_parent (h : t.Rooted) (hj : j < t.size) (hp : t.parent? j = some i) : i < j := by
  by_cases hzero : j = 0
  · rw [hzero, h.root] at hp
    exact absurd hp (by simp)
  · obtain ⟨p, hlt, hparent⟩ := h.parent j (by omega) hj
    rw [hp] at hparent
    obtain rfl := Option.some.inj hparent
    exact hlt

theorem lt_of_mem_children (h : t.Rooted) (hj : j ∈ t.children i) : i < j := by
  obtain ⟨hsize, hparent⟩ := mem_children.1 hj
  exact h.lt_of_parent hsize hparent

theorem ancestors_eq (h : t.Rooted) (hj : j < t.size) (hp : t.parent? j = some i) :
    t.ancestors j = t.lineage i := by
  rw [ancestors, hp]
  exact if_pos (h.lt_of_parent hj hp)

/-- The lineage of a node leads to the file. -/
theorem zero_mem_lineage (h : t.Rooted) (hj : j < t.size) : 0 ∈ t.lineage j := by
  induction j using Nat.strongRecOn with
  | ind j ih =>
    by_cases hzero : j = 0
    · rw [hzero]
      exact List.mem_cons_self
    · obtain ⟨p, hlt, hparent⟩ := h.parent j (by omega) hj
      rw [lineage, h.ancestors_eq hj hparent]
      exact List.mem_cons_of_mem j (ih p hlt (by omega))

theorem le_of_mem_lineage (hk : k ∈ t.lineage j) : k ≤ j := by
  rcases List.mem_cons.1 hk with rfl | hk
  · exact Nat.le_refl k
  · exact Nat.le_of_lt (lt_of_mem_ancestors hk)

/-- A node other than `j` is in the lineage of `j` through a child of its own. -/
theorem mem_ancestors_iff (h : t.Rooted) (hj : j < t.size) :
    i ∈ t.ancestors j ↔ ∃ k ∈ t.children i, k ∈ t.lineage j := by
  induction j using Nat.strongRecOn with
  | ind j ih =>
    cases hparent : t.parent? j with
    | none =>
      have hnil : t.ancestors j = [] := by
        rw [ancestors, hparent]
      rw [lineage, hnil]
      refine ⟨fun hmem => absurd hmem List.not_mem_nil, ?_⟩
      rintro ⟨k, hchild, hk⟩
      obtain rfl := List.mem_singleton.1 hk
      rw [(mem_children.1 hchild).2] at hparent
      exact absurd hparent (by simp)
    | some p =>
      have hlt := h.lt_of_parent hj hparent
      -- Either the parent is meant, whose child is the node itself, or something above the parent.
      rw [lineage, h.ancestors_eq hj hparent, lineage, List.mem_cons, ih p hlt (by omega)]
      constructor
      · rintro (rfl | ⟨k, hchild, hk⟩)
        · exact ⟨j, mem_children.2 ⟨hj, hparent⟩, List.mem_cons_self⟩
        · exact ⟨k, hchild, List.mem_cons_of_mem j hk⟩
      · rintro ⟨k, hchild, hk⟩
        rcases List.mem_cons.1 hk with rfl | hk
        · left
          rw [(mem_children.1 hchild).2] at hparent
          exact Option.some.inj hparent
        · exact .inr ⟨k, hchild, hk⟩

/-- Only one child of a node can be in a lineage. -/
theorem eq_of_mem_lineage (h : t.Rooted) {k' : Nat} (hk : k ∈ t.children i)
    (hk' : k' ∈ t.children i) (hj : j < t.size) (hmem : k ∈ t.lineage j) (hmem' : k' ∈ t.lineage j) :
    k = k' := by
  induction j using Nat.strongRecOn with
  | ind j ih =>
    -- When one of the two is `j` itself, the other one is above their common parent.
    have habove : ∀ a b : Nat, a ∈ t.children i → b ∈ t.children i → a = j → b ∈ t.lineage j → a = b := by
      intro a b ha hb hself hlineage
      rcases List.mem_cons.1 hlineage with rfl | hlineage
      · exact hself
      · obtain ⟨ha_size, ha_parent⟩ := mem_children.1 ha
        rw [← hself, h.ancestors_eq ha_size ha_parent] at hlineage
        have hle := le_of_mem_lineage hlineage
        have hlt := h.lt_of_mem_children hb
        omega
    rcases List.mem_cons.1 hmem with hself | hup
    · exact habove k k' hk hk' hself hmem'
    · rcases List.mem_cons.1 hmem' with hself' | hup'
      · exact (habove k' k hk' hk hself' hmem).symm
      · cases hparent : t.parent? j with
        | none =>
          rw [ancestors, hparent] at hup
          exact absurd hup List.not_mem_nil
        | some p =>
          have hlt := h.lt_of_parent hj hparent
          rw [h.ancestors_eq hj hparent] at hup hup'
          exact ih p hlt (by omega) hup hup'

end Rooted

/-! ## What stands below a node -/

/-- A node and everything below it, each node before its children. Children stand behind their
parent. -/
def below (t : Tree) (i : Nat) : List Nat :=
  i :: (t.children i).flatMap fun k => if i < k ∧ k < t.size then below t k else []
termination_by t.size - i

namespace Rooted

theorem below_eq (h : t.Rooted) (i : Nat) : t.below i = i :: (t.children i).flatMap t.below := by
  rw [below]
  congr 1
  refine List.flatMap_congr ?_
  intro k hk
  exact if_pos ⟨h.lt_of_mem_children hk, (mem_children.1 hk).1⟩

/-- Below a node are the nodes that have it in their lineage. -/
theorem mem_below (h : t.Rooted) (hi : i < t.size) :
    j ∈ t.below i ↔ j < t.size ∧ i ∈ t.lineage j := by
  induction hn : t.size - i using Nat.strongRecOn generalizing i with
  | ind n ih =>
    have hchild : ∀ k ∈ t.children i, (j ∈ t.below k ↔ j < t.size ∧ k ∈ t.lineage j) := by
      intro k hk
      have hlt := h.lt_of_mem_children hk
      have hsize := (mem_children.1 hk).1
      exact ih (t.size - k) (by omega) hsize rfl
    rw [h.below_eq, List.mem_cons, List.mem_flatMap, lineage, List.mem_cons]
    constructor
    · rintro (rfl | ⟨k, hk, hmem⟩)
      · exact ⟨hi, .inl rfl⟩
      · obtain ⟨hj, hlineage⟩ := (hchild k hk).1 hmem
        exact ⟨hj, .inr ((h.mem_ancestors_iff hj).2 ⟨k, hk, hlineage⟩)⟩
    · rintro ⟨hj, rfl | hup⟩
      · exact .inl rfl
      · obtain ⟨k, hk, hlineage⟩ := (h.mem_ancestors_iff hj).1 hup
        exact .inr ⟨k, hk, (hchild k hk).2 ⟨hj, hlineage⟩⟩

theorem nodup_below (h : t.Rooted) (hi : i < t.size) : (t.below i).Nodup := by
  induction hn : t.size - i using Nat.strongRecOn generalizing i with
  | ind n ih =>
    have hsize : ∀ k ∈ t.children i, k < t.size := fun k hk => (mem_children.1 hk).1
    rw [h.below_eq, List.nodup_cons, List.nodup_flatMap]
    refine ⟨?_, ?_, ?_⟩
    · -- The node stands before everything below its children.
      intro hmem
      obtain ⟨k, hk, hbelow⟩ := List.mem_flatMap.1 hmem
      have hle := le_of_mem_lineage ((h.mem_below (hsize k hk)).1 hbelow).2
      have hlt := h.lt_of_mem_children hk
      omega
    · intro k hk
      have hlt := h.lt_of_mem_children hk
      have := hsize k hk
      exact ih (t.size - k) (by omega) (hsize k hk) rfl
    · have hchildren : (t.children i).Nodup := List.Nodup.filter _ List.nodup_range
      refine hchildren.imp_of_mem ?_
      intro k k' hk hk' hne j hmem hmem'
      obtain ⟨hj, hlineage⟩ := (h.mem_below (hsize k hk)).1 hmem
      obtain ⟨-, hlineage'⟩ := (h.mem_below (hsize k' hk')).1 hmem'
      exact hne (h.eq_of_mem_lineage hk hk' hj hlineage hlineage')

/-! ## The walk -/

/-- A walk goes through what stands below the nodes on its stack. -/
theorem walk_eq_take (h : t.Rooted) (n : Nat) (stack : List Nat) :
    t.walk n stack = (stack.flatMap t.below).take n := by
  induction n generalizing stack with
  | zero => rw [walk, List.take_zero]
  | succ n ih =>
    cases stack with
    | nil => rfl
    | cons i stack =>
      rw [walk, ih, List.flatMap_cons, h.below_eq, List.flatMap_append, List.cons_append,
        List.take_succ_cons]

theorem preorder_eq_below (h : t.Rooted) : t.preorder = t.below 0 := by
  -- The nodes below the file are as many as there are nodes.
  have hperm : (t.below 0).Perm (List.range t.size) := by
    rw [List.perm_ext_iff_of_nodup (h.nodup_below h.size_pos) List.nodup_range]
    intro j
    rw [h.mem_below h.size_pos, List.mem_range]
    exact ⟨fun hj => hj.1, fun hj => ⟨hj, h.zero_mem_lineage hj⟩⟩
  rw [preorder, h.walk_eq_take, List.flatMap_singleton]
  refine List.take_of_length_le (Nat.le_of_eq ?_)
  rw [hperm.length_eq, List.length_range]

/-- The pre-order holds no node twice. -/
theorem nodup_preorder (h : t.Rooted) : t.preorder.Nodup := by
  rw [h.preorder_eq_below]
  exact h.nodup_below h.size_pos

/-- The pre-order holds all nodes. -/
theorem mem_preorder (h : t.Rooted) : j ∈ t.preorder ↔ j < t.size := by
  rw [h.preorder_eq_below, h.mem_below h.size_pos]
  exact ⟨fun hj => hj.1, fun hj => ⟨hj, h.zero_mem_lineage hj⟩⟩

end Rooted

end DocBlock.Tree
