import DocBlock.Proofs.Decl.Preorder

/-! # The declaration that a part belongs to

Parameters, signatures and inline function types are parts of the declaration around them and are
documented together with it; `host?` is the declaration that a node is documented with. Nodes below
different children of a node are different (`Under.append`), and a node stands behind its ancestors in
the pre-order (`mem_of_mem_ancestors`). -/

namespace DocBlock

/-- Whether a declaration is documented as a part of the one around it. -/
def Decl.isPart : Decl → Bool
  | parameter _ => true
  | callable .callSignature _ => true
  | callable .constructSignature _ => true
  | callable .functionType _ => true
  | _ => false

namespace Tree

variable {t : Tree} {i j k p x d : Nat} {host : Option Nat} {ks ks' names names' : List Nat}

/-! ## Hosts -/

/-- The innermost declaration among a node and its ancestors that is no part of another one. -/
def host? (t : Tree) (i : Nat) : Option Nat :=
  (t.lineage i).find? fun a => !(t.decl a).isPart

theorem host?_self (hi : (t.decl i).isPart = false) : t.host? i = some i := by
  rw [host?, lineage, List.find?_cons_of_pos]
  rw [hi]
  rfl

theorem mem_lineage_of_host? (h : t.host? i = some d) : d ∈ t.lineage i :=
  List.mem_of_find?_eq_some h

namespace Rooted

/-- A part has the host of what it is a part of. -/
theorem host?_of_isPart (h : t.Rooted) (hi : i < t.size) (hparent : t.parent? i = some p)
    (hpart : (t.decl i).isPart = true) : t.host? i = t.host? p := by
  rw [host?, lineage, List.find?_cons_of_neg, h.ancestors_eq hi hparent, host?]
  rw [hpart]
  exact Bool.false_ne_true

theorem lineage_subset (h : t.Rooted) (hj : j < t.size) (hk : k ∈ t.lineage j) :
    t.lineage k ⊆ t.lineage j := by
  induction j using Nat.strongRecOn with
  | ind j ih =>
    rcases List.mem_cons.1 hk with rfl | hk
    · exact List.Subset.refl _
    · cases hparent : t.parent? j with
      | none =>
        rw [ancestors, hparent] at hk
        exact absurd hk List.not_mem_nil
      | some p =>
        have hlt := h.lt_of_parent hj hparent
        rw [h.ancestors_eq hj hparent] at hk
        have hstep : t.lineage j = j :: t.lineage p := by rw [lineage, h.ancestors_eq hj hparent]
        rw [hstep]
        exact List.subset_cons_of_subset j (ih p hlt (by omega) hk)

end Rooted

/-! ## Nodes below some nodes -/

/-- Different nodes with one host, each of them below one of the nodes `ks`. -/
structure Under (t : Tree) (host : Option Nat) (ks names : List Nat) : Prop where
  nodup : names.Nodup
  below : ∀ m : Nat, m ∈ names → m < t.size ∧ t.host? m = host ∧ ∃ k : Nat, k ∈ ks ∧ k ∈ t.lineage m

theorem under_nil (t : Tree) (host : Option Nat) (ks : List Nat) : t.Under host ks [] :=
  ⟨List.nodup_nil, fun _ hm => absurd hm List.not_mem_nil⟩

theorem Under.mono (h : t.Under host ks names) (hsub : ks ⊆ ks') : t.Under host ks' names where
  nodup := h.nodup
  below m hm := by
    obtain ⟨hlt, hhost, k, hk, hlineage⟩ := h.below m hm
    exact ⟨hlt, hhost, k, hsub hk, hlineage⟩

/-- What stands below different children of a node is different. -/
theorem Under.append (ht : t.Rooted) (h : t.Under host ks names) (h' : t.Under host ks' names')
    (hks : ∀ k : Nat, k ∈ ks → k ∈ t.children x) (hks' : ∀ k : Nat, k ∈ ks' → k ∈ t.children x)
    (hdisjoint : ks.Disjoint ks') : t.Under host (ks ++ ks') (names ++ names') where
  nodup := by
    rw [List.nodup_append]
    refine ⟨h.nodup, h'.nodup, ?_⟩
    rintro m hm _ hm' rfl
    obtain ⟨hlt, -, k, hk, hlineage⟩ := h.below m hm
    obtain ⟨-, -, k', hk', hlineage'⟩ := h'.below m hm'
    obtain rfl := ht.eq_of_mem_lineage (hks k hk) (hks' k' hk') hlt hlineage hlineage'
    exact hdisjoint hk hk'
  below m hm := by
    rcases List.mem_append.1 hm with hm | hm
    · exact (h.mono (List.subset_append_left ks ks')).below m hm
    · exact (h'.mono (List.subset_append_right ks ks')).below m hm

/-- A node with what stands below its children. -/
theorem Under.cons_self (ht : t.Rooted) (hx : x < t.size) (h : t.Under (t.host? x) ks names)
    (hks : ∀ k : Nat, k ∈ ks → k ∈ t.children x) : t.Under (t.host? x) [x] (x :: names) where
  nodup := by
    rw [List.nodup_cons]
    refine ⟨?_, h.nodup⟩
    intro hmem
    obtain ⟨-, -, k, hk, hlineage⟩ := h.below x hmem
    have hlt := ht.lt_of_mem_children (hks k hk)
    have hle := Rooted.le_of_mem_lineage hlineage
    omega
  below m hm := by
    rcases List.mem_cons.1 hm with rfl | hm
    · exact ⟨hx, rfl, m, List.mem_singleton_self m, List.mem_cons_self⟩
    · obtain ⟨hlt, hhost, k, hk, hlineage⟩ := h.below m hm
      refine ⟨hlt, hhost, x, List.mem_singleton_self x, ?_⟩
      have hup : x ∈ t.ancestors m := (ht.mem_ancestors_iff hlt).2 ⟨k, hks k hk, hlineage⟩
      exact List.mem_cons_of_mem m hup

theorem Under.up (ht : t.Rooted) (hx : x < t.size) (h : t.Under (t.host? x) ks names)
    (hks : ∀ k : Nat, k ∈ ks → k ∈ t.children x) : t.Under (t.host? x) [x] names where
  nodup := h.nodup
  below m hm := (h.cons_self ht hx hks).below m (List.mem_cons_of_mem x hm)

theorem Under.perm (h : t.Under host ks names) (hperm : names.Perm names') :
    t.Under host ks names' where
  nodup := hperm.nodup h.nodup
  below m hm := h.below m (hperm.mem_iff.2 hm)

/-! ## Ancestors come first -/

namespace Rooted

/-- No node stands behind something below it. -/
theorem pairwise_below (h : t.Rooted) (hi : i < t.size) :
    (t.below i).Pairwise fun a b => b ∉ t.ancestors a := by
  induction hn : t.size - i using Nat.strongRecOn generalizing i with
  | ind n ih =>
    have hsize : ∀ k : Nat, k ∈ t.children i → k < t.size := fun k hk => (mem_children.1 hk).1
    rw [h.below_eq, List.pairwise_cons]
    refine ⟨?_, ?_⟩
    · -- What stands below the node does not stand before it.
      intro (b : Nat) hb hup
      obtain ⟨k, hk, hbelow⟩ := List.mem_flatMap.1 hb
      have hle := le_of_mem_lineage ((h.mem_below (hsize k hk)).1 hbelow).2
      have hlt := h.lt_of_mem_children hk
      have hup_lt : b < i := lt_of_mem_ancestors hup
      omega
    · rw [List.pairwise_flatMap]
      refine ⟨?_, ?_⟩
      · intro k hk
        have hlt := h.lt_of_mem_children hk
        have := hsize k hk
        exact ih (t.size - k) (by omega) (hsize k hk) rfl
      · have hchildren : (t.children i).Nodup := List.Nodup.filter _ List.nodup_range
        refine hchildren.imp_of_mem ?_
        intro k k' hk hk' hne a ha b hb hup
        obtain ⟨ha_size, ha_lineage⟩ := (h.mem_below (hsize k hk)).1 ha
        obtain ⟨-, hb_lineage⟩ := (h.mem_below (hsize k' hk')).1 hb
        have hk'_lineage : k' ∈ t.lineage a :=
          h.lineage_subset ha_size (List.mem_cons_of_mem a hup) hb_lineage
        exact hne (h.eq_of_mem_lineage hk hk' ha_size ha_lineage hk'_lineage)

/-- The pre-order comes to the ancestors of a node before it comes to the node. -/
theorem mem_of_mem_ancestors (h : t.Rooted) {done rest : List Nat} {node a : Nat}
    (hsplit : t.preorder = done ++ node :: rest) (ha : a ∈ t.ancestors node) : a ∈ done := by
  have hnode : node < t.size := by
    rw [← h.mem_preorder, hsplit]
    exact List.mem_append_right _ List.mem_cons_self
  have hmem : a ∈ t.preorder :=
    h.mem_preorder.2 (Nat.lt_trans (lt_of_mem_ancestors ha) hnode)
  have hpairwise := h.pairwise_below h.size_pos
  rw [← h.preorder_eq_below, hsplit, List.pairwise_append, List.pairwise_cons] at hpairwise
  rw [hsplit, List.mem_append, List.mem_cons] at hmem
  rcases hmem with hdone | rfl | hrest
  · exact hdone
  · exact absurd (lt_of_mem_ancestors ha) (Nat.lt_irrefl a)
  · exact absurd ha (hpairwise.2.1.1 a hrest)

end Rooted

end Tree

end DocBlock
