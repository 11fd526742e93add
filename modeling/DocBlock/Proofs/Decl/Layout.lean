import DocBlock.Proofs.Decl.Hosts

/-! # Nodes in the order of the document

Nodes are laid out (`Laid`) when each of them is followed by everything below it and names, in its
annotation and heritage clauses, exactly the inline types among its children. Where all nodes of a tree
are laid out (`LaidOut`), the pre-order is the order of the nodes (`preorder_eq_range`), the inline types
that a declaration names are children of it and of the kind they are named as (`LaidOut.names`), and
every inline type is named once, by its parent (`LaidOut.named_once`). -/

namespace DocBlock

/-! ## Inline types as they are named -/

/-- An inline type as it is named in a type. -/
inductive InlineRef where
  | object (node : NodeId)
  | function (node : NodeId)
  deriving DecidableEq, Inhabited, Repr

/-- The node that is named. -/
def InlineRef.node : InlineRef → Nat
  | object node => node
  | function node => node

namespace TypeExpr

mutual

/-- The inline types that are named in a type, from left to right. -/
def inlineRefs : TypeExpr → List InlineRef
  | object node => [.object node]
  | function node => [.function node]
  | reference _ args => allInlineRefs args
  | array element => inlineRefs element
  | union members => allInlineRefs members
  | intrinsic _ => []
  | query _ => []
  | other _ => []

/-- The inline types that are named in several types. -/
def allInlineRefs : List TypeExpr → List InlineRef
  | [] => []
  | type :: types => inlineRefs type ++ allInlineRefs types

end

theorem allInlineRefs_append (types types' : List TypeExpr) :
    allInlineRefs (types ++ types') = allInlineRefs types ++ allInlineRefs types' := by
  induction types with
  | nil => rfl
  | cons type types ih => rw [List.cons_append, allInlineRefs, allInlineRefs, ih, List.append_assoc]

end TypeExpr

namespace Decl

/-- The types that a declaration is written with: its annotation and those in its heritage clauses. -/
def writtenTypes (decl : Decl) : List TypeExpr :=
  decl.annotation?.toList ++ decl.heritage.flatMap (·.types)

/-- The inline types that are named in a declaration. -/
def inlineRefs (decl : Decl) : List InlineRef :=
  TypeExpr.allInlineRefs decl.writtenTypes

/-- How a declaration at a position is named when it is an inline type. -/
def inlineRef? (node : NodeId) : Decl → Option InlineRef
  | objectType => some (.object node)
  | callable .functionType _ => some (.function node)
  | _ => none

variable {decl : Decl} {a node : Nat}

theorem inlineRef?_eq_object (h : decl.inlineRef? node = some (.object a)) :
    node = a ∧ decl.isObjectType = true := by
  unfold inlineRef? at h
  split at h
  · exact ⟨InlineRef.object.inj (Option.some.inj h), rfl⟩
  · cases h
  · cases h

theorem inlineRef?_eq_function (h : decl.inlineRef? node = some (.function a)) :
    node = a ∧ decl.isFunctionType = true := by
  unfold inlineRef? at h
  split at h
  · cases h
  · exact ⟨InlineRef.function.inj (Option.some.inj h), rfl⟩
  · cases h

theorem node_of_inlineRef? {r : InlineRef} (h : decl.inlineRef? node = some r) : r.node = node := by
  cases r with
  | object a => exact (inlineRef?_eq_object h).1.symm
  | function a => exact (inlineRef?_eq_function h).1.symm

theorem inlineRef?_of_isObjectType (h : decl.isObjectType = true) :
    decl.inlineRef? node = some (.object node) := by
  unfold isObjectType at h
  split at h
  · rfl
  · cases h

theorem inlineRef?_of_isFunctionType (h : decl.isFunctionType = true) :
    decl.inlineRef? node = some (.function node) := by
  unfold isFunctionType at h
  split at h
  · rfl
  · cases h

end Decl

/-! ## Laid out nodes -/

/-- Nodes from position `base` on that stand below `owner`, with the inline types among the children of
`owner`: each node is followed by what stands below it, where exactly the inline types that it names
are among its children. -/
inductive Laid : Nat → Nat → List Node → List InlineRef → Prop
  | nil (owner base : Nat) : Laid owner base [] []
  | cons {owner base : Nat} {node : Node} {below rest : List Node} {refs : List InlineRef}
      (parent : node.parent = some owner)
      (below_laid : Laid base (base + 1) below node.decl.inlineRefs)
      (rest_laid : Laid owner (base + 1 + below.length) rest refs) :
      Laid owner base (node :: (below ++ rest)) ((node.decl.inlineRef? base).toList ++ refs)

theorem Laid.append {owner base : Nat} {nodes nodes' : List Node} {refs refs' : List InlineRef}
    (h : Laid owner base nodes refs) (h' : Laid owner (base + nodes.length) nodes' refs') :
    Laid owner base (nodes ++ nodes') (refs ++ refs') := by
  induction h with
  | nil owner base => exact h'
  | @cons owner base node below rest refs hparent hbelow _ _ ih =>
    have hlength : base + (node :: (below ++ rest)).length = base + 1 + below.length + rest.length := by
      rw [List.length_cons, List.length_append]
      omega
    rw [hlength] at h'
    have hrest := Laid.cons hparent hbelow (ih h')
    rw [List.append_assoc, List.cons_append, List.append_assoc]
    exact hrest

namespace Tree

variable {t : Tree} {i j k m owner base lo mid hi : Nat} {nodes pre post : List Node}
  {refs refs' : List InlineRef}

/-! ## The order of the nodes -/

theorem node_of_toList {node : Node} (pre post : List Node)
    (h : t.nodes.toList = pre ++ node :: post) : t.node pre.length = node := by
  rw [Tree.node, Array.getD_eq_getD_getElem?, ← Array.getElem?_toList, h,
    List.getElem?_append_right (Nat.le_refl _), Nat.sub_self]
  rfl

/-- A tree in which each node stands below the one before it or below an ancestor of that one. -/
def Consecutive (t : Tree) : Prop :=
  ∀ i : Nat, i + 1 < t.size → ∃ p : Nat, p ∈ t.lineage i ∧ t.parent? (i + 1) = some p

namespace Rooted

theorem mem_lineage_self_of_parent (h : t.Rooted) (hj : j < t.size) (hp : t.parent? j = some i) :
    i ∈ t.lineage j := by
  rw [lineage, h.ancestors_eq hj hp]
  exact List.mem_cons_of_mem j List.mem_cons_self

/-- What stands between a node and something below it stands below it too. -/
theorem mem_lineage_of_le (h : t.Rooted) (hc : t.Consecutive) (hj : j < t.size)
    (hk : k ∈ t.lineage j) (hkm : k ≤ m) (hmj : m ≤ j) : k ∈ t.lineage m := by
  induction j with
  | zero =>
    obtain rfl : m = 0 := by omega
    exact hk
  | succ j ih =>
    by_cases hm : m = j + 1
    · rw [hm]
      exact hk
    · obtain ⟨p, hp, hparent⟩ := hc j hj
      refine ih (by omega) ?_ (by omega)
      rcases List.mem_cons.1 hk with hself | hup
      · omega
      · rw [h.ancestors_eq hj hparent] at hup
        exact h.lineage_subset (by omega) hp hup

/-- What stands below a node stands there in order. -/
theorem sorted_below (h : t.Rooted) (hc : t.Consecutive) (hi : i < t.size) :
    (t.below i).Pairwise (· < ·) := by
  induction hn : t.size - i using Nat.strongRecOn generalizing i with
  | ind n ih =>
    have hsize : ∀ k : Nat, k ∈ t.children i → k < t.size := fun k hk => (mem_children.1 hk).1
    rw [h.below_eq, List.pairwise_cons]
    refine ⟨?_, ?_⟩
    · intro (b : Nat) hb
      obtain ⟨k, hk, hbelow⟩ := List.mem_flatMap.1 hb
      have hle := le_of_mem_lineage ((h.mem_below (hsize k hk)).1 hbelow).2
      have hlt := h.lt_of_mem_children hk
      omega
    · rw [List.pairwise_flatMap]
      refine ⟨?_, ?_⟩
      · intro k hk
        have hlt := h.lt_of_mem_children hk
        have := hsize k hk
        exact ih (t.size - k) (by omega) (hsize k hk) rfl
      · have hchildren : (t.children i).Pairwise (· < ·) := List.Pairwise.filter _ List.pairwise_lt_range
        refine hchildren.imp_of_mem ?_
        intro (k : Nat) (k' : Nat) hk hk' hlt (a : Nat) ha (b : Nat) hb
        obtain ⟨ha_size, ha_lineage⟩ := (h.mem_below (hsize k hk)).1 ha
        have hb_le := le_of_mem_lineage ((h.mem_below (hsize k' hk')).1 hb).2
        -- If `a` stood behind the second child, that child would stand below the first one.
        refine Nat.lt_of_not_le fun hba => Nat.ne_of_lt hlt ?_
        refine h.eq_of_mem_lineage hk hk' (hsize k' hk') ?_ List.mem_cons_self
        exact h.mem_lineage_of_le hc ha_size ha_lineage (Nat.le_of_lt hlt) (Nat.le_trans hb_le hba)

theorem preorder_eq_range (h : t.Rooted) (hc : t.Consecutive) : t.preorder = List.range t.size := by
  have hperm : t.preorder.Perm (List.range t.size) := by
    rw [List.perm_ext_iff_of_nodup h.nodup_preorder List.nodup_range]
    intro j
    rw [h.mem_preorder, List.mem_range]
  refine hperm.eq_of_pairwise ?_ ?_ List.pairwise_lt_range
  · intro a b _ _ hab hba
    omega
  · rw [h.preorder_eq_below]
    exact h.sorted_below hc h.size_pos

end Rooted

end Tree

/-- Laid out nodes stand below the node before them or below an ancestor of that one. -/
theorem Laid.follow {t : Tree} {owner base : Nat} {nodes : List Node} {refs : List InlineRef}
    (h : Laid owner base nodes refs) (ht : t.Rooted) (pre post : List Node)
    (hnodes : t.nodes.toList = pre ++ nodes ++ post)
    (hbase : pre.length = base) (hpos : 0 < base) (howner : owner ∈ t.lineage (base - 1)) :
    (∀ i : Nat, base ≤ i → i < base + nodes.length →
      ∃ p : Nat, p ∈ t.lineage (i - 1) ∧ t.parent? i = some p) ∧
    owner ∈ t.lineage (base + nodes.length - 1) := by
  induction h generalizing pre post with
  | nil owner base => exact ⟨fun i hle hlt => absurd hlt (by simpa using hle), howner⟩
  | @cons owner base node below rest refs hparent _ _ ih_below ih_rest =>
    have hnode : t.node base = node := by
      rw [← hbase]
      refine Tree.node_of_toList pre (below ++ rest ++ post) ?_
      rw [hnodes, List.append_assoc, List.cons_append]
    have hup : t.parent? base = some owner := by rw [Tree.parent?, hnode, hparent]
    have hsize : t.size = pre.length + (1 + below.length + rest.length) + post.length := by
      rw [Tree.size, ← Array.length_toList, hnodes, List.length_append, List.length_append,
        List.length_cons, List.length_append]
      omega
    obtain ⟨hfirst, hlast⟩ := ih_below (pre ++ [node]) (rest ++ post)
      (by rw [hnodes]; simp) (by simp [hbase]) (by omega) List.mem_cons_self
    have howner_last : owner ∈ t.lineage (base + 1 + below.length - 1) :=
      ht.lineage_subset (by omega) hlast (ht.mem_lineage_self_of_parent (by omega) hup)
    obtain ⟨hothers, hend⟩ := ih_rest (pre ++ node :: below) post
      (by rw [hnodes]; simp) (by simp [hbase]; omega) (by omega) howner_last
    have hlength : base + (node :: (below ++ rest)).length = base + 1 + below.length + rest.length := by
      rw [List.length_cons, List.length_append]
      omega
    rw [hlength]
    refine ⟨fun i hle hlt => ?_, hend⟩
    by_cases hself : i = base
    · rw [hself]
      exact ⟨owner, howner, hup⟩
    · by_cases hbelow : i < base + 1 + below.length
      · exact hfirst i (by omega) hbelow
      · exact hothers i (by omega) hlt

namespace Tree

variable {t : Tree} {i a owner base lo mid hi : Nat} {refs refs' : List InlineRef}

/-! ## The inline types that are named -/

/-- Different inline types that are children of `owner` from position `lo` up to `hi` and of the kind
they are named as. -/
structure NamesChildren (t : Tree) (owner lo hi : Nat) (refs : List InlineRef) : Prop where
  child : ∀ r ∈ refs, lo ≤ r.node ∧ r.node < hi ∧ t.parent? r.node = some owner
  kind : ∀ r ∈ refs, (t.decl r.node).inlineRef? r.node = some r
  nodup : (refs.map InlineRef.node).Nodup

theorem namesChildren_nil (t : Tree) (owner lo hi : Nat) : t.NamesChildren owner lo hi [] :=
  ⟨fun _ hr => absurd hr List.not_mem_nil, fun _ hr => absurd hr List.not_mem_nil, List.nodup_nil⟩

theorem NamesChildren.mono (h : t.NamesChildren owner lo hi refs) {lo' hi' : Nat} (hlo : lo' ≤ lo)
    (hhi : hi ≤ hi') : t.NamesChildren owner lo' hi' refs where
  child r hr := by
    obtain ⟨hle, hlt, hparent⟩ := h.child r hr
    exact ⟨Nat.le_trans hlo hle, Nat.lt_of_lt_of_le hlt hhi, hparent⟩
  kind := h.kind
  nodup := h.nodup

theorem NamesChildren.append (h : t.NamesChildren owner lo mid refs)
    (h' : t.NamesChildren owner mid hi refs') (hlo : lo ≤ mid) (hhi : mid ≤ hi) :
    t.NamesChildren owner lo hi (refs ++ refs') where
  child r hr := by
    rcases List.mem_append.1 hr with hr | hr
    · exact (h.mono (Nat.le_refl _) hhi).child r hr
    · exact (h'.mono hlo (Nat.le_refl _)).child r hr
  kind r hr := by
    rcases List.mem_append.1 hr with hr | hr
    · exact h.kind r hr
    · exact h'.kind r hr
  nodup := by
    rw [List.map_append, List.nodup_append]
    refine ⟨h.nodup, h'.nodup, ?_⟩
    intro a ha b hb hab
    obtain ⟨r, hr, rfl⟩ := List.mem_map.1 ha
    obtain ⟨r', hr', rfl⟩ := List.mem_map.1 hb
    have hlt := (h.child r hr).2.1
    have hle := (h'.child r' hr').1
    omega

/-- The node at a position is named below its parent when it is an inline type. -/
theorem namesChildren_self (hparent : t.parent? i = some owner) :
    t.NamesChildren owner i (i + 1) ((t.decl i).inlineRef? i).toList := by
  cases hself : (t.decl i).inlineRef? i with
  | none => exact t.namesChildren_nil owner i (i + 1)
  | some r =>
    have hnode := Decl.node_of_inlineRef? hself
    refine ⟨?_, ?_, List.nodup_singleton _⟩
    · intro r' hr'
      obtain rfl := List.mem_singleton.1 hr'
      exact ⟨by omega, by omega, by rw [hnode, hparent]⟩
    · intro r' hr'
      obtain rfl := List.mem_singleton.1 hr'
      rw [hnode, hself]

end Tree

/-- Laid out nodes name children of their own, and all inline types among them are named. -/
theorem Laid.names {t : Tree} {owner base : Nat} {nodes : List Node} {refs : List InlineRef}
    (h : Laid owner base nodes refs) (pre post : List Node)
    (hnodes : t.nodes.toList = pre ++ nodes ++ post)
    (hbase : pre.length = base) :
    t.NamesChildren owner base (base + nodes.length) refs ∧
    ∀ i : Nat, base ≤ i → i < base + nodes.length →
      t.NamesChildren i base (base + nodes.length) (t.decl i).inlineRefs ∧
      ∀ r, (t.decl i).inlineRef? i = some r →
        r ∈ refs ∨ ∃ p : Nat, base ≤ p ∧ p < base + nodes.length ∧ r ∈ (t.decl p).inlineRefs := by
  induction h generalizing pre post with
  | nil owner base =>
    exact ⟨t.namesChildren_nil owner base base, fun i hle hlt => absurd hlt (by simpa using hle)⟩
  | @cons owner base node below rest refs hparent _ _ ih_below ih_rest =>
    have hnode : t.node base = node := by
      rw [← hbase]
      refine Tree.node_of_toList pre (below ++ rest ++ post) ?_
      rw [hnodes, List.append_assoc, List.cons_append]
    have hdecl : t.decl base = node.decl := by rw [Tree.decl, hnode]
    have hself : t.NamesChildren owner base (base + 1) (node.decl.inlineRef? base).toList := by
      rw [← hdecl]
      exact Tree.namesChildren_self (by rw [Tree.parent?, hnode, hparent])
    obtain ⟨hown, hbelow⟩ := ih_below (pre ++ [node]) (rest ++ post)
      (by rw [hnodes]; simp) (by simp [hbase])
    obtain ⟨hsiblings, hrest⟩ := ih_rest (pre ++ node :: below) post
      (by rw [hnodes]; simp) (by simp [hbase]; omega)
    have hlength : base + (node :: (below ++ rest)).length = base + 1 + below.length + rest.length := by
      rw [List.length_cons, List.length_append]
      omega
    rw [hlength]
    refine ⟨(hself.mono (Nat.le_refl _) (by omega)).append hsiblings (by omega) (by omega), ?_⟩
    intro i hle hlt
    by_cases hi : i = base
    · -- The node itself is named below `owner`, and it names what stands below it.
      subst hi
      rw [hdecl]
      refine ⟨hown.mono (by omega) (by omega), fun r hr => .inl ?_⟩
      rw [hr]
      exact List.mem_append_left _ List.mem_cons_self
    · by_cases hi_below : i < base + 1 + below.length
      · obtain ⟨hnames, hnamed⟩ := hbelow i (by omega) hi_below
        refine ⟨hnames.mono (by omega) (by omega), fun r hr => .inr ?_⟩
        rcases hnamed r hr with hr | ⟨p, hp_le, hp_lt, hr⟩
        · exact ⟨base, Nat.le_refl _, by omega, by rw [hdecl]; exact hr⟩
        · exact ⟨p, by omega, by omega, hr⟩
      · obtain ⟨hnames, hnamed⟩ := hrest i (by omega) hlt
        refine ⟨hnames.mono (by omega) (by omega), fun r hr => ?_⟩
        rcases hnamed r hr with hr | ⟨p, hp_le, hp_lt, hr⟩
        · exact .inl (List.mem_append_right _ hr)
        · exact .inr ⟨p, by omega, by omega, hr⟩

namespace Tree

variable {t : Tree} {i a : Nat} {r : InlineRef}

/-! ## Trees that are laid out -/

/-- A tree whose nodes are laid out below a file that names no inline types and is none. -/
structure LaidOut (t : Tree) : Prop where
  split : ∃ file nodes, t.nodes.toList = file :: nodes ∧ file.decl.isFile = true ∧ Laid 0 1 nodes []

theorem LaidOut.consecutive (h : t.LaidOut) (ht : t.Rooted) : t.Consecutive := by
  obtain ⟨file, nodes, hnodes, -, hlaid⟩ := h.split
  have hsize : t.size = 1 + nodes.length := by
    rw [Tree.size, ← Array.length_toList, hnodes, List.length_cons]
    omega
  obtain ⟨hfollow, -⟩ := hlaid.follow ht [file] [] (by simpa using hnodes) rfl
    Nat.zero_lt_one List.mem_cons_self
  exact fun i hi => hfollow (i + 1) (by omega) (by omega)

/-- What a declaration names are inline types among its children, none of them twice, and each inline
type is named by some declaration. -/
theorem LaidOut.names (h : t.LaidOut) (i : Nat) :
    t.NamesChildren i 0 t.size (t.decl i).inlineRefs ∧
      ∀ r, (t.decl i).inlineRef? i = some r → ∃ p : Nat, r ∈ (t.decl p).inlineRefs := by
  obtain ⟨file, nodes, hnodes, hfile, hlaid⟩ := h.split
  have hsize : t.size = 1 + nodes.length := by
    rw [Tree.size, ← Array.length_toList, hnodes, List.length_cons]
    omega
  have hplain : ∀ decl : Decl, decl.isFile = true →
      decl.inlineRefs = [] ∧ decl.inlineRef? i = none := by
    intro decl hdecl
    cases decl with
    | file name => exact ⟨rfl, rfl⟩
    | _ => cases hdecl
  have hnone : (t.decl i).isFile = true → t.NamesChildren i 0 t.size (t.decl i).inlineRefs ∧
      ∀ r, (t.decl i).inlineRef? i = some r → ∃ p : Nat, r ∈ (t.decl p).inlineRefs := by
    intro hi
    obtain ⟨hrefs, hself⟩ := hplain _ hi
    rw [hrefs, hself]
    exact ⟨t.namesChildren_nil i 0 t.size, fun r hr => by cases hr⟩
  by_cases hzero : i = 0
  · refine hnone ?_
    have hnode : t.node 0 = file := Tree.node_of_toList [] nodes hnodes
    rw [hzero, Tree.decl, hnode]
    exact hfile
  · by_cases hi : i < t.size
    · obtain ⟨-, hnames⟩ := hlaid.names [file] [] (by simpa using hnodes) rfl
      obtain ⟨hchildren, hnamed⟩ := hnames i (by omega) (by omega)
      refine ⟨hchildren.mono (Nat.zero_le 1) (by omega), fun r hr => ?_⟩
      rcases hnamed r hr with hr | ⟨p, -, -, hr⟩
      · exact absurd hr List.not_mem_nil
      · exact ⟨p, hr⟩
    · refine hnone ?_
      rw [decl_of_size_le (Nat.le_of_not_lt hi)]
      rfl

/-- An inline type is named once by its parent and by no other declaration. -/
theorem LaidOut.named_once (h : t.LaidOut) (hr : (t.decl a).inlineRef? a = some r) :
    ∃ p : Nat, t.parent? a = some p ∧ ((t.decl p).inlineRefs.map InlineRef.node).count a = 1 ∧
      ∀ n : Nat, n ≠ p → ∀ r ∈ (t.decl n).inlineRefs, r.node ≠ a := by
  obtain ⟨p, hp⟩ := (h.names a).2 r hr
  have hnode := Decl.node_of_inlineRef? hr
  have hparent := ((h.names p).1.child r hp).2.2
  rw [hnode] at hparent
  refine ⟨p, hparent, ?_, ?_⟩
  · refine List.count_eq_one_of_mem (h.names p).1.nodup ?_
    rw [← hnode]
    exact List.mem_map_of_mem hp
  · intro n hn r' hr' heq
    have hother := ((h.names n).1.child r' hr').2.2
    rw [heq, hparent] at hother
    exact hn (Option.some.inj hother).symm

end Tree

end DocBlock
