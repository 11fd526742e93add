import DocBlock.Proofs.Comment.Gathering
import DocBlock.Proofs.Synthesis.Books

/-! # Repeated interfaces and namespaces are merged

The entries of interfaces and namespaces with the same owner and name are merged into the first one of them
(`Pass.Unites`): it keeps its own tags first, answers for all tags of the others and has all descriptions,
and the others are left empty. Nothing else happens to these entries, except that a property of an inline
object type may be written into one that has a `typedef` tag. -/

namespace DocBlock

open Comment (Gathers)
open Synthesis (keyOf)

namespace Comment

variable {c : Comment}

/-- A comment that may get more tags if it has some. -/
structure Grows (c c' : Comment) : Prop where
  heads : c.heads <+: c'.heads
  description : c'.description = c.description
  tags : c.tags = [] → c' = c

theorem Grows.refl (c : Comment) : c.Grows c :=
  ⟨List.prefix_refl _, rfl, fun _ => rfl⟩

theorem grows_put {f : Tag → Tag} (hf : ∀ tag, (f tag).head = tag.head) (htags : c.tags ≠ [])
    (kind : String) (name : Option String) : c.Grows (c.put kind name f) :=
  ⟨heads_put hf c kind name, description_put c kind name f, fun hnil => absurd hnil htags⟩

end Comment

namespace Pass

variable {t : Tree} {table : SymbolTable} {p p' : Pass} {nodes : List Nat} {origin : EntryOrigin}
  {node id : Nat} {names : List NodeId} {key : DeclKey} {s s' : Sighting}

/-- The sightings that are merged, oldest first. -/
def merged (p : Pass) : List Sighting :=
  p.sightings.filter (·.merged)

/-- The sightings that are merged under a key, oldest first. -/
def mergedUnder (p : Pass) (key : DeclKey) : List Sighting :=
  p.merged.filter fun s => s.key == key

/-- A pass in which the entries of `nodes` have been merged under their keys. -/
structure Unites (t : Tree) (nodes : List Nat) (p : Pass) : Prop where
  listed : List.Forall₂ (fun s n => p.origins[s.entry]? = some (.own n) ∧ keyOf t n = .ok s.key)
    p.merged nodes
  canonical : ∀ key, p.comments.canonical.lookup key = (p.mergedUnder key).head?.map (·.entry)
  entries : ∀ key first others, p.mergedUnder key = first :: others → first.seen.tags ≠ [] ∧
    Gathers first.seen (others.map (·.seen)) (p.comments.get first.entry) ∧
    ∀ s ∈ others, p.comments.get s.entry = Comment.empty

theorem unites_nil (t : Tree) : Unites t [] {} where
  listed := .nil
  canonical _ := rfl
  entries _ _ _ hunder := absurd hunder (by simp [mergedUnder, merged])

theorem mem_of_mergedUnder (h : s ∈ p.mergedUnder key) : s ∈ p.merged ∧ s.key = key :=
  ⟨(List.mem_filter.1 h).1, beq_iff_eq.1 (List.mem_filter.1 h).2⟩

theorem merged_unite (p : Pass) (key : DeclKey) (id : Nat) : (p.unite key id).merged =
    p.merged ++ [{ key, entry := id, merged := true, seen := p.comments.get id }] := by
  simp [merged, unite]

theorem mergedUnder_unite (p : Pass) (key key' : DeclKey) (id : Nat) :
    (p.unite key id).mergedUnder key' = p.mergedUnder key' ++
      if key = key' then [{ key, entry := id, merged := true, seen := p.comments.get id }] else [] := by
  rw [mergedUnder, merged_unite, List.filter_append, mergedUnder]
  by_cases hkey : key = key'
  · simp [hkey]
  · simp [hkey]

/-- Merging makes no other entry canonical for a key. -/
theorem lookup_canonical_unite {i : Nat} (hi : p.comments.canonical.lookup key = some i) (key' : DeclKey)
    (id : Nat) : (p.unite key' id).comments.canonical.lookup key = some i := by
  rcases p.comments.enroll_cases key' id with henroll | henroll | ⟨first, -, henroll⟩
  · rw [unite, henroll]
    show (p.comments.canonical ++ _).lookup key = some i
    rw [List.lookup_append, hi]
    rfl
  · rw [unite, henroll]
    exact hi
  · rw [unite, henroll]
    show (p.comments.merge id first).canonical.lookup key = some i
    rw [Collection.canonical_merge]
    exact hi

namespace Unites

theorem exists_node (h : p.Unites t nodes) (hs : s ∈ p.merged) :
    ∃ n, p.origins[s.entry]? = some (.own n) ∧ keyOf t n = .ok s.key := by
  obtain ⟨n, -, hn⟩ := exists_mem_of_forall₂ h.listed hs
  exact ⟨n, hn⟩

/-- An entry is merged under one key only. -/
theorem key_eq (h : p.Unites t nodes) (hs : s ∈ p.merged) (hs' : s' ∈ p.merged)
    (hentry : s.entry = s'.entry) : s.key = s'.key := by
  obtain ⟨n, hn, hkey⟩ := h.exists_node hs
  obtain ⟨n', hn', hkey'⟩ := h.exists_node hs'
  rw [hentry, hn'] at hn
  cases hn
  rw [hkey] at hkey'
  exact Except.ok.inj hkey'

/-- Nothing is merged where entries only grow. -/
theorem of_same (h : p.Unites t nodes) (hmerged : p'.merged = p.merged)
    (hcanonical : p'.comments.canonical = p.comments.canonical)
    (horigins : ∀ (i : Nat) origin, p.origins[i]? = some origin → p'.origins[i]? = some origin)
    (hentries : ∀ s ∈ p.merged, (p.comments.get s.entry).Grows (p'.comments.get s.entry)) :
    p'.Unites t nodes where
  listed := by
    rw [hmerged]
    exact h.listed.imp fun s n hlisted => ⟨horigins _ _ hlisted.1, hlisted.2⟩
  canonical key := by rw [hcanonical, h.canonical key, mergedUnder, mergedUnder, hmerged]
  entries key first others hunder := by
    rw [mergedUnder, hmerged] at hunder
    obtain ⟨htags, hgathers, hempty⟩ := h.entries key first others hunder
    have hmem : ∀ s ∈ first :: others, s ∈ p.merged := by
      intro s hs
      rw [← hunder] at hs
      exact (mem_of_mergedUnder hs).1
    have hfirst := hentries first (hmem first List.mem_cons_self)
    refine ⟨htags, hgathers.mono hfirst.heads hfirst.description, ?_⟩
    intro s hs
    have hentry := hentries s (hmem s (List.mem_cons_of_mem first hs))
    rw [hentry.tags (by rw [hempty s hs]; rfl), hempty s hs]

theorem link (h : p.Unites t nodes) (hp : p.Aligned) (links : List (EntryOrigin × Comment))
    (names : List NodeId) : (p.link links names).Unites t nodes := by
  refine h.of_same rfl rfl (fun i origin hi => origins_link_of_some hi links names) ?_
  intro s hs
  obtain ⟨n, hn, -⟩ := h.exists_node hs
  rw [get_link_of_lt (hp.lt_size hn)]
  exact .refl _

theorem fill (h : p.Unites t nodes) (hp : p.Aligned) {i : Nat} {c : Comment}
    (hc : (p.comments.get i).Grows c) : (p.fill i c).Unites t nodes := by
  refine h.of_same rfl rfl (fun _ _ hi => hi) ?_
  intro s hs
  obtain ⟨n, hn, -⟩ := h.exists_node hs
  by_cases hi : i = s.entry
  · rw [hi, get_fill_self (hp.lt_size hn), ← hi]
    exact hc
  · rw [get_fill_of_ne hi]
    exact .refl _

theorem counts (h : p.Unites t nodes) (hp : p.Aligned)
    (hcounts : t.Counts table origin node names p p') : p'.Unites t nodes := by
  obtain ⟨key, seen, c, links, -, -, -, rfl⟩ := hcounts
  refine Unites.link ?_ (hp.sight _ _ _) _ _
  refine h.of_same ?_ (Collection.canonical_count _ key) (fun _ _ hi => hi) ?_
  · simp [merged, sight]
  · intro s _
    rw [get_sight]
    exact .refl _

/-- The new sighting is listed. -/
theorem listed_unite (h : p.Unites t nodes) (hown : p.origins[id]? = some (.own node))
    (hkey : keyOf t node = .ok key) :
    List.Forall₂ (fun s n => p.origins[s.entry]? = some (.own n) ∧ keyOf t n = .ok s.key)
      (p.unite key id).merged (nodes ++ [node]) := by
  rw [merged_unite]
  exact List.rel_append h.listed (.cons ⟨hown, hkey⟩ .nil)

/-- The first entry under a key is kept as it is. -/
theorem unite_first (h : p.Unites t nodes) (hown : p.origins[id]? = some (.own node))
    (hkey : keyOf t node = .ok key) (htags : (p.comments.get id).tags ≠ [])
    (hunder : p.mergedUnder key = []) : (p.unite key id).Unites t (nodes ++ [node]) := by
  have hnone : p.comments.canonical.lookup key = none := by
    rw [h.canonical key, hunder]
    rfl
  have hcanonical : (p.unite key id).comments.canonical = p.comments.canonical ++ [(key, id)] := by
    rw [unite_of_none hnone]
  have hget : ∀ i : Nat, (p.unite key id).comments.get i = p.comments.get i := by
    intro i
    rw [unite_of_none hnone]
    rfl
  refine ⟨h.listed_unite hown hkey, ?_, ?_⟩
  · intro key'
    rw [hcanonical, List.lookup_append, mergedUnder_unite, List.lookup_cons]
    by_cases hkey' : key = key'
    · rw [← hkey', hnone, hunder, if_pos rfl, beq_self_eq_true]
      rfl
    · rw [if_neg hkey', List.append_nil, beq_eq_false_iff_ne.2 (Ne.symm hkey'), List.lookup_nil,
        Option.or_none, h.canonical key']
  · intro key' first others hfirst
    rw [mergedUnder_unite] at hfirst
    by_cases hkey' : key = key'
    · rw [if_pos hkey', ← hkey', hunder] at hfirst
      cases hfirst
      rw [hget]
      exact ⟨htags, .self _, fun _ hs => absurd hs List.not_mem_nil⟩
    · rw [if_neg hkey', List.append_nil] at hfirst
      obtain ⟨hseen, hgathers, hempty⟩ := h.entries key' first others hfirst
      refine ⟨hseen, ?_, ?_⟩
      · rw [hget]
        exact hgathers
      · intro s hs
        rw [hget, hempty s hs]

/-- Any other one is merged into the first one, and is empty then. -/
theorem unite_again (h : p.Unites t nodes) (hp : p.Aligned) (hown : p.origins[id]? = some (.own node))
    (hkey : keyOf t node = .ok key) (hfresh : ∀ s ∈ p.merged, s.entry ≠ id) {first : Sighting}
    {others : List Sighting} (hunder : p.mergedUnder key = first :: others) :
    (p.unite key id).Unites t (nodes ++ [node]) := by
  have hsome : p.comments.canonical.lookup key = some first.entry := by
    rw [h.canonical key, hunder]
    rfl
  obtain ⟨hmerged, hfirstkey⟩ := mem_of_mergedUnder (by rw [hunder]; exact List.mem_cons_self)
  obtain ⟨n, hn, -⟩ := h.exists_node hmerged
  have hne : first.entry ≠ id := hfresh first hmerged
  have hlt : first.entry < p.comments.size := hp.lt_size hn
  have hid : id < p.comments.size := hp.lt_size hown
  have hunite := unite_of_some hsome hne hlt hid
  have hcanonical : (p.unite key id).comments.canonical = p.comments.canonical := by
    rw [hunite]
    rfl
  have hself : (p.unite key id).comments.get id = Comment.empty := by
    rw [hunite]
    exact get_fill_self (by rw [size_fill]; exact hid) _
  have hfirst : (p.unite key id).comments.get first.entry =
      (p.comments.get id).mergeInto (p.comments.get first.entry) := by
    rw [hunite]
    exact (get_fill_of_ne (Ne.symm hne) _).trans (get_fill_self hlt _)
  have hother : ∀ i : Nat, i ≠ id → i ≠ first.entry →
      (p.unite key id).comments.get i = p.comments.get i := by
    intro i hi hi'
    rw [hunite]
    exact (get_fill_of_ne (Ne.symm hi) _).trans (get_fill_of_ne (Ne.symm hi') _)
  obtain ⟨htags, hgathers, hempty⟩ := h.entries key first others hunder
  refine ⟨h.listed_unite hown hkey, ?_, ?_⟩
  · intro key'
    rw [hcanonical, h.canonical key', mergedUnder_unite]
    by_cases hkey' : key = key'
    · rw [← hkey', hunder]
      rfl
    · rw [if_neg hkey', List.append_nil]
  · -- The empty entries stay so, since the first one under the key has tags.
    have hemptied : ∀ s ∈ p.merged, p.comments.get s.entry = Comment.empty →
        (p.unite key id).comments.get s.entry = Comment.empty := by
      intro s hs hget
      rw [hother s.entry (hfresh s hs) ?_, hget]
      intro heq
      rw [heq] at hget
      exact hgathers.tags_ne_nil htags (by rw [hget]; rfl)
    intro key' first' others' hfirst'
    rw [mergedUnder_unite] at hfirst'
    by_cases hkey' : key = key'
    · rw [if_pos hkey', ← hkey', hunder, List.cons_append] at hfirst'
      obtain ⟨rfl, rfl⟩ := List.cons.inj hfirst'
      refine ⟨htags, ?_, ?_⟩
      · rw [hfirst, List.map_append]
        exact hgathers.mergeInto _
      · intro s hs
        rcases List.mem_append.1 hs with hs | hs
        · have hlisted : s ∈ p.mergedUnder key := by
            rw [hunder]
            exact List.mem_cons_of_mem _ hs
          exact hemptied s (mem_of_mergedUnder hlisted).1 (hempty s hs)
        · rw [List.mem_singleton.1 hs]
          exact hself
    · rw [if_neg hkey', List.append_nil] at hfirst'
      obtain ⟨htags', hgathers', hempty'⟩ := h.entries key' first' others' hfirst'
      have hlisted : ∀ s ∈ first' :: others', s ∈ p.merged ∧ s.key = key' := by
        intro s hs
        rw [← hfirst'] at hs
        exact mem_of_mergedUnder hs
      obtain ⟨hmerged', hfirstkey'⟩ := hlisted first' List.mem_cons_self
      refine ⟨htags', ?_, fun s hs => ?_⟩
      · rw [hother first'.entry (hfresh first' hmerged') ?_]
        · exact hgathers'
        · intro heq
          have hsame := h.key_eq hmerged' hmerged heq
          rw [hfirstkey, hfirstkey'] at hsame
          exact hkey' hsame.symm
      · exact hemptied s (hlisted s (List.mem_cons_of_mem _ hs)).1 (hempty' s hs)

theorem unite (h : p.Unites t nodes) (hp : p.Aligned) (hown : p.origins[id]? = some (.own node))
    (hkey : keyOf t node = .ok key) (hfresh : ∀ s ∈ p.merged, s.entry ≠ id)
    (htags : (p.comments.get id).tags ≠ []) : (p.unite key id).Unites t (nodes ++ [node]) := by
  cases hunder : p.mergedUnder key with
  | nil => exact h.unite_first hown hkey htags hunder
  | cons first others => exact h.unite_again hp hown hkey hfresh hunder

/-- What is canonical for a key is not empty. -/
theorem isEmpty_of_lookup (h : p.Unites t nodes) {i : Nat}
    (hi : p.comments.canonical.lookup key = some i) : (p.comments.get i).isEmpty = false := by
  rw [h.canonical key] at hi
  obtain ⟨first, hfirst, rfl⟩ := Option.map_eq_some_iff.1 hi
  obtain ⟨others, hunder⟩ := List.head?_eq_some_iff.1 hfirst
  obtain ⟨hseen, hgathers, -⟩ := h.entries key first others hunder
  exact Comment.isEmpty_of_tags_ne_nil (hgathers.tags_ne_nil hseen)

end Unites

end Pass

namespace Tree

variable {t : Tree} {table : SymbolTable} {p p' : Pass} {node : Nat} {done : List Nat} {names : List NodeId}
  {origin : EntryOrigin} {blocks : List (EntryOrigin × NodeId)}

theorem Counts.merged (h : t.Counts table origin node names p p') : p'.merged = p.merged := by
  obtain ⟨key, seen, c, links, -, -, -, rfl⟩ := h
  simp [Pass.merged, Pass.sight, Pass.link]

theorem CountsAll.merged (h : t.CountsAll table blocks names p p') : p'.merged = p.merged := by
  induction h with
  | nil p => rfl
  | cons hfirst _ ih => exact ih.trans hfirst.merged

theorem CountsAll.unites (h : t.CountsAll table blocks names p p') {nodes : List Nat} (hp : p.Aligned)
    (hunites : p.Unites t nodes) : p'.Aligned ∧ p'.Unites t nodes := by
  induction h with
  | nil p => exact ⟨hp, hunites⟩
  | cons hfirst _ ih => exact ih (hfirst.aligned hp) (hunites.counts hp hfirst)

/-- Documenting a declaration merges its entry when it is one that is merged. -/
theorem Documented.unites (h : t.Documented table node p p') (hp : p.Enrolled t)
    (hunites : p.Unites t (done.filter t.isMerged)) :
    p'.Unites t ((done ++ [node]).filter t.isMerged) := by
  have hother : t.isMerged node = false → (done ++ [node]).filter t.isMerged = done.filter t.isMerged := by
    intro hmerged
    rw [List.filter_append, List.filter_cons_of_neg (by rw [hmerged]; exact Bool.false_ne_true),
      List.filter_nil, List.append_nil]
  cases h with
  | passed _ hmerged =>
    rw [hother hmerged]
    exact hunites
  | property _ hmerged _ _ _ hfound =>
    rw [hother hmerged]
    refine Pass.Unites.link (hunites.fill hp.aligned (Comment.grows_put ?_ ?_ _ _)) (hp.aligned.fill _ _) _ _
    · exact fun _ => rfl
    · exact Comment.tags_ne_nil_of_hasTag (Synthesis.hasTag_of_find? hfound)
  | plain _ hmerged =>
    rw [hother hmerged]
    exact hunites.link hp.aligned _ _
  | numbered _ hmerged hcounts =>
    rw [hother hmerged]
    exact hunites.counts hp.aligned hcounts
  | collapsed hmerged hcounts =>
    rw [hother hmerged]
    exact (hcounts.unites (hp.aligned.link _ _) (hunites.link hp.aligned _ _)).2
  | merged hmerged htags hcounts _ hkey =>
    obtain ⟨hget, hown⟩ := hcounts.keeps (p.lt_size_new _ _ _ _) (hp.aligned.origins_new _ _ _ _)
    obtain ⟨hq, hqunites⟩ := hcounts.unites (hp.aligned.link _ _) (hunites.link hp.aligned _ _)
    rw [List.filter_append, List.filter_cons_of_pos hmerged, List.filter_nil]
    refine hqunites.unite hq hown hkey ?_ ?_
    · intro s hs
      rw [hcounts.merged] at hs
      obtain ⟨n, hn, -⟩ := hunites.exists_node hs
      exact Nat.ne_of_lt (hp.aligned.lt_size hn)
    · rw [hget, Pass.get_new]
      exact htags

/-! ## Canonical entries -/

theorem Counts.canonical (h : t.Counts table origin node names p p') :
    p'.comments.canonical = p.comments.canonical := by
  obtain ⟨key, seen, c, links, -, -, -, rfl⟩ := h
  exact Collection.canonical_count _ key

theorem CountsAll.canonical (h : t.CountsAll table blocks names p p') :
    p'.comments.canonical = p.comments.canonical := by
  induction h with
  | nil p => rfl
  | cons hfirst _ ih => exact ih.trans hfirst.canonical

/-- An entry that is canonical for a key stays so. -/
theorem Documented.lookup_canonical (h : t.Documented table node p p') {key : DeclKey} {i : Nat}
    (hi : p.comments.canonical.lookup key = some i) : p'.comments.canonical.lookup key = some i := by
  cases h with
  | passed => exact hi
  | property => exact hi
  | plain => exact hi
  | numbered _ _ hcounts =>
    rw [hcounts.canonical]
    exact hi
  | collapsed _ hcounts =>
    rw [hcounts.canonical]
    exact hi
  | merged _ _ hcounts =>
    refine Pass.lookup_canonical_unite ?_ _ _
    rw [hcounts.canonical]
    exact hi

/-- The declarations that are merged under a key, in the order of the tree. -/
def mergedUnder (t : Tree) (key : DeclKey) : List NodeId :=
  ((t.below 0).filter t.isMerged).filter fun n => (keyOf t n).toOption == some key

end Tree

/-! ## All declarations -/

theorem unites_documentAll {t : Tree} {table : SymbolTable} {p : Pass} {done rest : List Nat}
    (hr : t.Rooted) (ht : t.Inlined) (hsplit : t.preorder = done ++ rest)
    (hrun : (Synthesis.documentAll t table done).run {} = .ok ((), p)) :
    p.Enrolled t ∧ p.Unites t (done.filter t.isMerged) := by
  have hnil : Pass.Enrolled t {} ∧ Pass.Unites t [] {} :=
    ⟨⟨rfl, fun _ _ hmem => absurd hmem List.not_mem_nil⟩, Pass.unites_nil t⟩
  have hsplit' : t.preorder = [] ++ (done ++ rest) := hsplit
  refine Synthesis.documentAll_induction hr ht
    (J := fun done p => p.Enrolled t ∧ p.Unites t (done.filter t.isMerged)) ?_ hsplit' hnil hrun
  rintro done node rest p p' - ⟨hp, hunites⟩ hdocumented
  exact ⟨hdocumented.enrolled hp, hdocumented.unites hp hunites⟩

/-- Interfaces and namespaces that are declared again are merged. The entries that are merged under a key are
those of the declarations with that key, in order. In the end the first one is not empty; it answers for each
tag that any of them had when it was merged, with a tag of the same kind and, if that tag had a name, of the
same name; it has its own tags first, in order and with their kinds and names; and its description is made of
all descriptions that are not empty, with a blank line between each two. All other ones are empty. An entry
that others are merged into stays the one for its key, and is not empty after any declaration. -/
theorem Source.ModuleForm.merged_entries_of_collect (form : Source.ModuleForm) (path : String)
    (table : SymbolTable) (cs : Collection) (hcollect : (form.toTree path).collect table = .ok cs) :
    ∃ pass, (form.toTree path).runPass table = .ok pass ∧ pass.comments = cs ∧
      (∀ key : DeclKey, (pass.mergedUnder key).map (fun s => pass.origins[s.entry]?) =
          ((form.toTree path).mergedUnder key).map (fun n => some (.own n)) ∧
        ∀ first others, pass.mergedUnder key = first :: others →
          ∃ entry, cs.entries[first.entry]? = some entry ∧ entry.isEmpty = false ∧
            (∀ s ∈ first :: others, ∀ tag ∈ s.seen.tags, ∃ tag' ∈ entry.tags, tag'.kind = tag.kind ∧
              ∀ name, tag.name = some name → tag'.name = some name) ∧
            first.seen.heads <+: entry.heads ∧
            entry.description.getD "" = Comment.mergedProse ((first :: others).map (·.seen)) ∧
            ∀ s ∈ others, cs.entries[s.entry]? = some Comment.empty) ∧
      ∀ (done rest : List Nat) (before : Pass), (form.toTree path).preorder = done ++ rest →
        (Synthesis.documentAll (form.toTree path) table done).run {} = .ok ((), before) →
        ∀ (key : DeclKey) (i : Nat), before.comments.canonical.lookup key = some i →
          (before.comments.get i).isEmpty = false ∧ cs.canonical.lookup key = some i := by
  have hr : (form.toTree path).Rooted := (placed_toTree path form).toRooted
  have ht : (form.toTree path).Inlined := inlined_toTree path form
  obtain ⟨pass, hrun, rfl⟩ := exists_runPass_of_collect hcollect
  have hall := Synthesis.run_documentAll_of_runPass hrun
  obtain ⟨hp, hunites⟩ := unites_documentAll hr ht (List.append_nil _).symm hall
  refine ⟨pass, hrun, rfl, fun key => ⟨?_, ?_⟩, ?_⟩
  · have hlisted := hunites.listed
    rw [hr.preorder_eq_below] at hlisted
    exact map_origins_under hlisted key
  · intro first others hunder
    obtain ⟨hseen, hgathers, hempty⟩ := hunites.entries key first others hunder
    have hentry : ∀ s ∈ first :: others,
        pass.comments.entries[s.entry]? = some (pass.comments.get s.entry) := by
      intro s hs
      rw [← hunder] at hs
      obtain ⟨n, hn, -⟩ := hunites.exists_node (Pass.mem_of_mergedUnder hs).1
      exact Pass.get_of_lt (hp.aligned.lt_size hn)
    refine ⟨_, hentry first List.mem_cons_self,
      Comment.isEmpty_of_tags_ne_nil (hgathers.tags_ne_nil hseen), ?_, hgathers.kept, ?_, ?_⟩
    · intro s hs tag htag
      have hseen : s.seen ∈ first.seen :: others.map (·.seen) := List.mem_map_of_mem hs
      exact Comment.exists_tag_of_hasTag (hgathers.tags _ hseen tag htag)
    · exact hgathers.description
    · intro s hs
      rw [hentry s (List.mem_cons_of_mem first hs), hempty s hs]
  · intro done rest before hsplit hbefore key i hlookup
    obtain ⟨-, hunites⟩ := unites_documentAll hr ht hsplit hbefore
    refine ⟨hunites.isEmpty_of_lookup hlookup, ?_⟩
    rw [hsplit, Synthesis.run_documentAll_append] at hall
    obtain ⟨q, hq, hrest⟩ := hall
    rw [hbefore] at hq
    cases hq
    have hsplit' : (form.toTree path).preorder = done ++ (rest ++ []) := by rw [List.append_nil, hsplit]
    refine Synthesis.documentAll_induction hr ht
      (J := fun _ p => p.comments.canonical.lookup key = some i) ?_ hsplit' hlookup hrest
    rintro done node rest p p' - hi hdocumented
    exact hdocumented.lookup_canonical hi

/-- A module with an interface in two parts. The `@see` tag of the first one has a name, the other one has
none. -/
def Source.splitModule : Source.ModuleForm where
  items :=
    [.interface { doc := some "/**\n * First.\n * @see One\n */" } "A" [] [] [.property {} "x" false none],
    .interface { doc := some "/**\n * Second.\n * @see\n */" } "A" [] [] [.property {} "y" false none]]

/-- The second part is merged into the first one. -/
theorem Source.ModuleForm.merged_entries_of_collect_splitModule :
    ∃ cs pass first second entry, (splitModule.toTree "split.ts").collect {} = .ok cs ∧
      (splitModule.toTree "split.ts").runPass {} = .ok pass ∧ pass.comments = cs ∧
      pass.mergedUnder { owner := none, name := "A" } = [first, second] ∧
      cs.entries[first.entry]? = some entry ∧ entry.isEmpty = false ∧
      entry.description.getD "" = "First.\n\nSecond." ∧
      cs.entries[second.entry]? = some Comment.empty := by
  obtain ⟨cs, hcollect⟩ := Error.exists_of_isOk
    (by decide +kernel : ((splitModule.toTree "split.ts").collect {}).isOk = true)
  obtain ⟨pass, hrun, hcomments, hkeys, -⟩ :=
    merged_entries_of_collect splitModule "split.ts" {} cs hcollect
  obtain ⟨-, hentries⟩ := hkeys { owner := none, name := "A" }
  have hdescriptions : ((splitModule.toTree "split.ts").runPass {}).toOption.map (fun p =>
      (p.mergedUnder { owner := none, name := "A" }).map (·.seen.description)) =
      some [some "First.", some "Second."] := by decide +kernel
  rw [hrun] at hdescriptions
  replace hdescriptions : (pass.mergedUnder { owner := none, name := "A" }).map (·.seen.description) =
    [some "First.", some "Second."] := Option.some.inj hdescriptions
  obtain ⟨first, others, hunder, hfirst, hothers⟩ := List.map_eq_cons_iff.1 hdescriptions
  obtain ⟨second, rest, rfl, hsecond, hrest⟩ := List.map_eq_cons_iff.1 hothers
  obtain rfl := List.map_eq_nil_iff.1 hrest
  obtain ⟨entry, hentry, hne, -, -, hdescription, hempty⟩ := hentries first [second] hunder
  refine ⟨cs, pass, first, second, entry, hcollect, hrun, hcomments, hunder, hentry, hne, ?_,
    hempty second List.mem_cons_self⟩
  rw [hdescription]
  simp [Comment.mergedProse, Comment.paragraphs, hfirst, hsecond, Text.joinStrings]

/-- A tag without a name leaves no tag of its own: the entry of the first part has no `@see` tag without a
name. -/
theorem Source.ModuleForm.nameless_tag_splitModule :
    ∃ pass, (splitModule.toTree "split.ts").runPass {} = .ok pass ∧
      (pass.mergedUnder { owner := none, name := "A" }).map (fun s => (s.entry, pass.origins[s.entry]?)) =
        [(0, some (.own 1)), (2, some (.own 3))] ∧
      ∃ s ∈ pass.mergedUnder { owner := none, name := "A" }, ∃ tag ∈ s.seen.tags,
        ∀ tag' ∈ (pass.comments.get 0).tags, ¬(tag'.kind = tag.kind ∧ tag'.name = tag.name) := by
  obtain ⟨pass, hrun⟩ := Error.exists_of_isOk
    (by decide +kernel : ((splitModule.toTree "split.ts").runPass {}).isOk = true)
  have hbooks : ((splitModule.toTree "split.ts").runPass {}).toOption.all (fun p => decide (
      (p.mergedUnder { owner := none, name := "A" }).map (fun s => (s.entry, p.origins[s.entry]?)) =
        [(0, some (.own 1)), (2, some (.own 3))] ∧
      ∃ s ∈ p.mergedUnder { owner := none, name := "A" }, ∃ tag ∈ s.seen.tags,
        ∀ tag' ∈ (p.comments.get 0).tags, ¬(tag'.kind = tag.kind ∧ tag'.name = tag.name))) = true := by
    decide +kernel
  rw [hrun] at hbooks
  exact ⟨pass, hrun, of_decide_eq_true hbooks⟩

end DocBlock
