import DocBlock.Proofs.Synthesis.OwnEntries
import DocBlock.Proofs.Synthesis.Steps
import Mathlib.Data.List.Forall2

/-! # The books of a pass

Counting a key adds one to what the book of sightings says about it and leaves all other keys alone
(`lookup_count`). Merging an entry either makes it canonical (`unite_of_none`) or writes it into the
canonical entry and empties it (`unite_of_some`). Only entries of declarations that are merged ever
become canonical (`Pass.Enrolled`), and a declaration gets its entry before that entry is merged. -/

namespace DocBlock

/-- What is listed beside something. -/
theorem exists_mem_of_forall₂ {α β : Type} {R : α → β → Prop} {xs : List α} {ys : List β} {x : α}
    (h : List.Forall₂ R xs ys) (hx : x ∈ xs) : ∃ y ∈ ys, R x y := by
  induction h with
  | nil => exact absurd hx List.not_mem_nil
  | cons hfirst _ ih =>
    rcases List.mem_cons.1 hx with rfl | hx
    · exact ⟨_, List.mem_cons_self, hfirst⟩
    · obtain ⟨y, hy, hxy⟩ := ih hx
      exact ⟨y, List.mem_cons_of_mem _ hy, hxy⟩

/-! ## Books of a collection -/

namespace Collection

variable {cs : Collection} {key : DeclKey}

theorem number_count (cs : Collection) (key : DeclKey) :
    (cs.count key).2 = (cs.sightings.lookup key).map (· + 1) := by
  unfold count
  cases cs.sightings.lookup key <;> rfl

theorem canonical_count (cs : Collection) (key : DeclKey) :
    (cs.count key).1.canonical = cs.canonical := by
  unfold count
  cases cs.sightings.lookup key <;> rfl

theorem lookup_increased (book : List (DeclKey × Nat)) (key key' : DeclKey) :
    (book.map fun (k, m) => if k = key then (k, m + 1) else (k, m)).lookup key' =
      if key' = key then (book.lookup key).map (· + 1) else book.lookup key' := by
  induction book with
  | nil => split <;> rfl
  | cons pair book ih =>
    obtain ⟨k, m⟩ := pair
    rw [List.map_cons]
    dsimp only
    by_cases hk : k = key
    · rw [if_pos hk, List.lookup_cons, List.lookup_cons, List.lookup_cons, ih, hk, beq_self_eq_true]
      by_cases hkey : key' = key
      · rw [hkey, beq_self_eq_true]
        simp
      · rw [if_neg hkey, if_neg hkey, beq_eq_false_iff_ne.2 hkey]
    · have hne : (key == k) = false := beq_eq_false_iff_ne.2 (Ne.symm hk)
      rw [if_neg hk, List.lookup_cons, List.lookup_cons, List.lookup_cons, ih, hne]
      by_cases hkey : key' = key
      · rw [hkey, hne, if_pos rfl]
      · rw [if_neg hkey, if_neg hkey]

/-- Counting a key is counting that key only. -/
theorem lookup_count (cs : Collection) (key key' : DeclKey) :
    (cs.count key).1.sightings.lookup key' =
      if key' = key then some ((cs.sightings.lookup key).getD 0 + 1)
      else cs.sightings.lookup key' := by
  unfold count
  cases hlookup : cs.sightings.lookup key with
  | none =>
    show (cs.sightings ++ [(key, 1)]).lookup key' = _
    rw [List.lookup_append, List.lookup_cons]
    by_cases hkey : key' = key
    · rw [hkey, hlookup, if_pos rfl, beq_self_eq_true]
      rfl
    · rw [if_neg hkey, beq_eq_false_iff_ne.2 hkey, List.lookup_nil, Option.or_none]
  | some n =>
    show (cs.sightings.map fun (k, m) => if k = key then (k, m + 1) else (k, m)).lookup key' = _
    rw [lookup_increased, hlookup]
    rfl

end Collection

/-! ## Sightings under a key -/

/-- When the sightings of a book are those of some declarations in a tree, then the sightings under a key are
those of the declarations with that key. -/
theorem map_origins_under {α : Type} {t : Tree} {origins : List EntryOrigin} {sightings : List Sighting}
    {ys : List α} {f : α → EntryOrigin} {g : α → NodeId}
    (h : List.Forall₂ (fun s y => origins[s.entry]? = some (f y) ∧ Synthesis.keyOf t (g y) = .ok s.key)
      sightings ys) (key : DeclKey) :
    (sightings.filter fun s => s.key == key).map (fun s => origins[s.entry]?) =
      (ys.filter fun y => (Synthesis.keyOf t (g y)).toOption == some key).map (fun y => some (f y)) := by
  have hfiltered := List.rel_filter (p := fun s : Sighting => s.key == key)
    (q := fun y => (Synthesis.keyOf t (g y)).toOption == some key) ?_ h
  · rw [← List.forall₂_eq_eq_eq, List.forall₂_map_left_iff, List.forall₂_map_right_iff]
    exact hfiltered.imp fun s y hlisted => hlisted.1
  · rintro s y ⟨-, hkey⟩
    dsimp only
    rw [hkey]
    simp [Except.toOption]

/-! ## Entries that are merged -/

namespace Pass

variable {t : Tree} {table : SymbolTable} {p p' : Pass} {key : DeclKey} {id i first : Nat}
  {origin : EntryOrigin} {node : Nat} {names : List NodeId}

/-- The first entry that is merged under a key becomes canonical. -/
theorem unite_of_none (hnone : p.comments.canonical.lookup key = none) :
    p.unite key id =
      { p with
        comments := { p.comments with canonical := p.comments.canonical ++ [(key, id)] }
        sightings :=
          p.sightings ++ [{ key, entry := id, merged := true, seen := p.comments.get id }] } := by
  unfold unite Collection.enroll
  rw [hnone]
  rfl

/-- Any other one is written into the canonical entry, and is empty then. -/
theorem unite_of_some (hsome : p.comments.canonical.lookup key = some first) (hne : first ≠ id)
    (hfirst : first < p.comments.size) (hid : id < p.comments.size) :
    p.unite key id =
      { (p.fill first ((p.comments.get id).mergeInto (p.comments.get first))).fill id Comment.empty with
        sightings :=
          p.sightings ++ [{ key, entry := id, merged := true, seen := p.comments.get id }] } := by
  have hmerge : p.comments.merge id first =
      ((p.fill first ((p.comments.get id).mergeInto (p.comments.get first))).fill id
        Comment.empty).comments := by
    have htarget := modify_eq_fill hfirst (p.comments.get id).mergeInto
    have hid' : id < (p.fill first ((p.comments.get id).mergeInto (p.comments.get first))).comments.size := by
      rw [size_fill]
      exact hid
    have hsource := modify_eq_fill hid' fun _ => Comment.empty
    rw [Collection.merge, if_neg (Ne.symm hne), ← hsource, ← htarget]
  unfold unite Collection.enroll
  rw [hsome]
  dsimp only
  rw [if_neg hne]
  show { p with comments := p.comments.merge id first, sightings := _ } = _
  rw [hmerge]
  rfl

theorem sightings_unite (p : Pass) (key : DeclKey) (id : Nat) :
    (p.unite key id).comments.sightings = p.comments.sightings := by
  rcases p.comments.enroll_cases key id with henroll | henroll | ⟨first, -, henroll⟩
  · rw [unite, henroll]
    rfl
  · rw [unite, henroll]
    rfl
  · rw [unite, henroll]
    show (p.comments.merge id first).sightings = _
    rw [Collection.merge]
    split <;> rfl

/-! ## Origins -/

theorem origins_link_of_some (h : p.origins[i]? = some origin) (links : List (EntryOrigin × Comment))
    (names : List NodeId) : (p.link links names).origins[i]? = some origin := by
  obtain ⟨hlt, -⟩ := List.getElem?_eq_some_iff.1 h
  rw [link, List.getElem?_append_left hlt, h]

theorem Aligned.link (h : p.Aligned) (links : List (EntryOrigin × Comment)) (names : List NodeId) :
    (p.link links names).Aligned := by
  rw [Aligned, size_link, ← h]
  simp [Pass.link]

theorem Aligned.fill (h : p.Aligned) (i : Nat) (c : Comment) : (p.fill i c).Aligned := by
  rw [Aligned, size_fill]
  exact h

theorem Aligned.sight (h : p.Aligned) (key : DeclKey) (id : Nat) (seen : Comment) :
    (p.sight key id seen).Aligned := by
  rw [Aligned, size_sight]
  exact h

/-- The new entry has its origin. -/
theorem Aligned.origins_new (h : p.Aligned) (origin : EntryOrigin) (c : Comment)
    (links : List (EntryOrigin × Comment)) (names : List NodeId) :
    (p.link ((origin, c) :: links) names).origins[p.comments.size]? = some origin := by
  rw [← h, Pass.link, List.map_cons, List.getElem?_append_right (Nat.le_refl _), Nat.sub_self]
  rfl

/-- Every entry of a pass with more entries was there before or is one of the new ones. -/
theorem Aligned.link_cases (h : p.Aligned) {links : List (EntryOrigin × Comment)} {names : List NodeId}
    (hi : (p.link links names).origins[i]? = some origin) :
    (p.origins[i]? = some origin ∧ (p.link links names).comments.get i = p.comments.get i) ∨
      (origin, (p.link links names).comments.get i) ∈ links := by
  by_cases hlt : i < p.origins.length
  · rw [Pass.link, List.getElem?_append_left hlt] at hi
    exact .inl ⟨hi, get_link_of_lt (h ▸ hlt)⟩
  · right
    have hle : p.comments.size ≤ i := by
      rw [← h]
      exact Nat.le_of_not_lt hlt
    rw [Pass.link, List.getElem?_append_right (Nat.le_of_not_lt hlt), List.getElem?_map, h] at hi
    obtain ⟨⟨o, c⟩, hlink, rfl⟩ := Option.map_eq_some_iff.1 hi
    have hget : (p.link links names).comments.get i = c := by
      rw [Collection.get, Pass.link, List.getD_eq_getElem?_getD, List.getElem?_append_right hle,
        List.getElem?_map]
      show ((links[i - p.comments.size]?).map Prod.snd).getD Comment.empty = c
      rw [hlink]
      rfl
    rw [hget]
    exact List.mem_of_getElem? hlink

/-! ## Canonical entries -/

/-- A pass in which only entries of declarations that are merged are canonical. -/
structure Enrolled (t : Tree) (p : Pass) : Prop where
  aligned : p.Aligned
  canonical : ∀ (key : DeclKey) (i : Nat), (key, i) ∈ p.comments.canonical →
    ∃ n, p.origins[i]? = some (.own n) ∧ t.isMerged n = true

namespace Enrolled

theorem link (h : p.Enrolled t) (links : List (EntryOrigin × Comment)) (names : List NodeId) :
    (p.link links names).Enrolled t where
  aligned := h.aligned.link links names
  canonical key i hmem := by
    obtain ⟨n, hown, hmerged⟩ := h.canonical key i hmem
    exact ⟨n, origins_link_of_some hown links names, hmerged⟩

theorem fill (h : p.Enrolled t) (i : Nat) (c : Comment) : (p.fill i c).Enrolled t :=
  ⟨h.aligned.fill i c, h.canonical⟩

theorem counts (h : p.Enrolled t) (hcounts : t.Counts table origin node names p p') :
    p'.Enrolled t := by
  obtain ⟨key, seen, c, links, -, -, -, rfl⟩ := hcounts
  refine Enrolled.link ⟨h.aligned.sight _ _ _, ?_⟩ _ _
  intro key' i hmem
  rw [sight, Collection.canonical_count] at hmem
  exact h.canonical key' i hmem

theorem unite (h : p.Enrolled t) (hown : p.origins[id]? = some (.own node))
    (hmerged : t.isMerged node = true) (key : DeclKey) : (p.unite key id).Enrolled t where
  aligned := by
    have hsize : (p.unite key id).comments.size = p.comments.size :=
      (p.comments.enroll_merges key id).size_eq
    rw [Aligned, hsize]
    exact h.aligned
  canonical key' i hmem := by
    rcases (p.comments.enroll_merges key id).canonical key' i hmem with hbefore | rfl
    · exact h.canonical key' i hbefore
    · exact ⟨node, hown, hmerged⟩

end Enrolled

end Pass

namespace Tree

variable {t : Tree} {table : SymbolTable} {p p' : Pass} {i : Nat} {node : Nat}
  {origin : EntryOrigin} {names : List NodeId} {blocks : List (EntryOrigin × NodeId)}

/-- A counted entry is that of a declaration that is not merged, or that of a signature. -/
theorem mem_counted {block : EntryOrigin × NodeId} (hblock : block ∈ t.counted node) :
    (block.1 = .own node ∧ t.isMerged node = false) ∨
      ∃ n, block.1 = .callback n ∨ block.1 = .signature n := by
  have hself : block ∈ [(EntryOrigin.own node, node)] → block.1 = .own node := by
    intro hmem
    rw [List.mem_singleton.1 hmem]
  rw [counted] at hblock
  split at hblock
  · exact .inl ⟨hself hblock, by rw [isMerged]; simp [*]⟩
  · exact .inl ⟨hself hblock, by rw [isMerged]; simp [*]⟩
  · exact .inl ⟨hself hblock, by rw [isMerged]; simp [*]⟩
  · exact .inl ⟨hself hblock, by rw [isMerged]; simp [*]⟩
  · exact .inl ⟨hself hblock, by rw [isMerged]; simp [*]⟩
  · -- Interfaces only count the entries of their signatures.
    split at hblock
    · obtain ⟨s, -, rfl⟩ := List.mem_map.1 hblock
      exact .inr ⟨s.declaration, .inl rfl⟩
    · obtain ⟨s, -, rfl⟩ := List.mem_map.1 hblock
      exact .inr ⟨s.declaration, .inr rfl⟩
  · exact absurd hblock List.not_mem_nil

/-- What one counted entry carries on is carried on by several. -/
theorem CountsAll.carry {J : List (EntryOrigin × NodeId) → List NodeId → Pass → Prop}
    (hstep : ∀ done named origin node names p p', J done named p →
      t.Counts table origin node names p p' → J (done ++ [(origin, node)]) (named ++ names) p')
    (h : t.CountsAll table blocks names p p') (done : List (EntryOrigin × NodeId))
    (named : List NodeId) (hp : J done named p) : J (done ++ blocks) (named ++ names) p' := by
  induction h generalizing done named with
  | nil p =>
    rw [List.append_nil, List.append_nil]
    exact hp
  | cons hfirst _ ih =>
    have hq := ih _ _ (hstep _ _ _ _ _ _ _ hp hfirst)
    rw [List.append_assoc, List.append_assoc, List.singleton_append] at hq
    exact hq

theorem CountsAll.enrolled (h : t.CountsAll table blocks names p p') (hp : p.Enrolled t) :
    p'.Enrolled t :=
  h.carry (J := fun _ _ p => p.Enrolled t) (fun _ _ _ _ _ _ _ hp hcounts => hp.counts hcounts) [] [] hp

theorem Counts.aligned (h : t.Counts table origin node names p p') (hp : p.Aligned) : p'.Aligned := by
  obtain ⟨key, seen, c, links, -, -, -, rfl⟩ := h
  exact (hp.sight _ _ _).link _ _

theorem Counts.origins_of_some {other : EntryOrigin} (h : t.Counts table origin node names p p')
    (hi : p.origins[i]? = some other) : p'.origins[i]? = some other := by
  obtain ⟨key, seen, c, links, -, -, -, rfl⟩ := h
  have hsighted : (p.sight key p.comments.size seen).origins[i]? = some other := hi
  exact Pass.origins_link_of_some hsighted _ _

/-- Entries that are there already stay as they are, with their origins. -/
theorem CountsAll.keeps (h : t.CountsAll table blocks names p p') (hi : i < p.comments.size)
    (horigin : p.origins[i]? = some origin) :
    p'.comments.get i = p.comments.get i ∧ p'.origins[i]? = some origin := by
  induction h with
  | nil p => exact ⟨rfl, horigin⟩
  | cons hfirst _ ih =>
    obtain ⟨hget, hlast⟩ := ih (Nat.lt_trans hi hfirst.size_lt) (hfirst.origins_of_some horigin)
    rw [hget, hfirst.get_of_lt hi]
    exact ⟨rfl, hlast⟩

/-- Documenting a declaration makes no other entry canonical. -/
theorem Documented.enrolled (h : t.Documented table node p p') (hp : p.Enrolled t) :
    p'.Enrolled t := by
  cases h with
  | passed => exact hp
  | property => exact (hp.fill _ _).link _ _
  | plain => exact hp.link _ _
  | numbered _ _ hcounts => exact hp.counts hcounts
  | collapsed _ hcounts => exact hcounts.enrolled (hp.link _ _)
  | merged hmerged _ hcounts =>
    have hown := hcounts.keeps (p.lt_size_new _ _ _ _) (hp.aligned.origins_new _ _ _ _)
    exact (hcounts.enrolled (hp.link _ _)).unite hown.2 hmerged _

end Tree

end DocBlock
