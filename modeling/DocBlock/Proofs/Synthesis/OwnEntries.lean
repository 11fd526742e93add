import DocBlock.Proofs.Synthesis.Kinds

/-! # The entries of declarations at the end of a pass

Declarations are documented one after the other, and later ones go on writing to the collection. What
has been reached by then is kept as an invariant (`Pass.Documents`): the declarations with a tag of
their own have been given one entry each, in order, and each of these entries has its tag, its owner
and the prose of its hand-written comment. Entries may be merged with each other, but only those that
are canonical for a key, and those belong to other declarations. -/

namespace DocBlock

/-! ## Merging -/

namespace Collection

variable {cs : Collection} {source target i : Nat}

@[simp] theorem size_merge (cs : Collection) (source target : Nat) :
    (cs.merge source target).size = cs.size := by
  rw [merge]
  split
  · rfl
  · rw [size_modify, size_modify]

theorem get_merge_of_ne (hi : i < cs.size) (hsource : i ≠ source) (htarget : i ≠ target) :
    (cs.merge source target).get i = cs.get i := by
  rw [merge]
  split
  · rfl
  · rw [get_modify (by rwa [size_modify]), if_neg (Ne.symm hsource), get_modify hi,
      if_neg (Ne.symm htarget)]

theorem canonical_merge (cs : Collection) (source target : Nat) :
    (cs.merge source target).canonical = cs.canonical := by
  rw [merge]
  split <;> rfl

/-- An entry either becomes canonical, or is to be merged into one that is canonical already. -/
theorem enroll_cases (cs : Collection) (key : DeclKey) (i : Nat) :
    cs.enroll key i = ({ cs with canonical := cs.canonical ++ [(key, i)] }, none) ∨
      cs.enroll key i = (cs, none) ∨
        ∃ first, (key, first) ∈ cs.canonical ∧ cs.enroll key i = (cs, some first) := by
  rw [enroll]
  cases hfirst : cs.canonical.lookup key with
  | none => exact .inl rfl
  | some first =>
    dsimp only
    split
    · exact .inr (.inl rfl)
    · obtain ⟨before, after, hcanonical, -⟩ := List.lookup_eq_some_iff.1 hfirst
      refine .inr (.inr ⟨first, ?_, rfl⟩)
      rw [hcanonical]
      exact List.mem_append_right before List.mem_cons_self

/-- What merging the entry `id` does: no entry but that one and canonical ones is changed, and no other
one becomes canonical. -/
structure Merges (id : Nat) (cs cs' : Collection) : Prop where
  size_eq : cs'.size = cs.size
  canonical : ∀ key first, (key, first) ∈ cs'.canonical → (key, first) ∈ cs.canonical ∨ first = id
  entries : ∀ i : Nat, i < cs.size → i ≠ id → (∀ key, (key, i) ∉ cs.canonical) → cs'.get i = cs.get i

theorem enroll_merges (cs : Collection) (key : DeclKey) (id : Nat) :
    cs.Merges id ((cs.enroll key id).2.elim (cs.enroll key id).1 ((cs.enroll key id).1.merge id)) := by
  rcases cs.enroll_cases key id with henroll | henroll | ⟨first, hfirst, henroll⟩
  · rw [henroll]
    refine ⟨rfl, ?_, fun _ _ _ _ => rfl⟩
    intro key' first' hmem
    rcases List.mem_append.1 hmem with hmem | hmem
    · exact .inl hmem
    · exact .inr (congrArg Prod.snd (List.mem_singleton.1 hmem))
  · rw [henroll]
    exact ⟨rfl, fun _ _ hmem => .inl hmem, fun _ _ _ _ => rfl⟩
  · rw [henroll]
    refine ⟨size_merge cs id first, ?_, ?_⟩
    · intro key' first' hmem
      rw [Option.elim_some, canonical_merge] at hmem
      exact .inl hmem
    · intro i hi hid hcanonical
      refine get_merge_of_ne hi hid ?_
      rintro rfl
      exact hcanonical key hfirst

end Collection

theorem Synthesis.mergeRepeated_merges {t : Tree} {id : Nat} {node : NodeId} {p p' : Pass}
    (hrun : (mergeRepeated t id node).run p = .ok ((), p')) :
    p'.origins = p.origins ∧ p.comments.Merges id p'.comments := by
  obtain ⟨key, q, hlift, hrest⟩ := run_bind_eq_ok.1 hrun
  obtain ⟨-, hq⟩ := run_lift_eq_ok.1 hlift
  subst hq
  cases hrest
  exact ⟨rfl, q.comments.enroll_merges key id⟩

/-! ## The invariant -/

section

open Synthesis

variable {t : Tree} {table : SymbolTable} {node : NodeId} {tag : String × Option String}
  {done : List NodeId} {p p' : Pass} {c c' : Comment}

/-- What the entry of a declaration says whose own tag is `tag`. -/
structure Tree.OwnEntry (t : Tree) (node : NodeId) (tag : String × Option String) (c : Comment) :
    Prop where
  facts : ∀ fact ∈ tag :: ownerFacts t node, c.hasTag fact.1 fact.2 = true
  enriches : (startingComment t node).paramNames.Nodup → c.Enriches (startingComment t node)

theorem Tree.OwnEntry.keeps (h : t.OwnEntry node tag c) (hkeeps : c.Keeps c') :
    t.OwnEntry node tag c' := by
  refine ⟨?_, ?_⟩
  · intro fact hfact
    exact (hkeeps Comment.empty).hasTag List.not_mem_nil (h.facts fact hfact)
  · intro hnodup
    exact (hkeeps _).enriches hnodup (h.enriches hnodup)

/-- Whether a declaration has a tag of its own. -/
def Tree.hasOwnTag (t : Tree) (node : NodeId) : Bool :=
  (t.ownTag? node).isSome

namespace Pass

/-- The declarations that have an entry of their own, in the order of their entries. -/
def owners (p : Pass) : List NodeId :=
  p.origins.filterMap EntryOrigin.own?

/-- A pass that has come past the declarations `done`. -/
structure Documents (t : Tree) (done : List NodeId) (p : Pass) : Prop where
  aligned : p.Aligned
  owners : p.owners.filter t.hasOwnTag = done.filter t.hasOwnTag
  canonical : ∀ key first, (key, first) ∈ p.comments.canonical →
    ∃ node, p.origins[first]? = some (.own node) ∧ t.ownTag? node = none
  entries : ∀ (i : Nat) node tag, p.origins[i]? = some (.own node) → t.ownTag? node = some tag →
    t.OwnEntry node tag (p.comments.get i)

theorem documents_nil (t : Tree) : Documents t [] {} where
  aligned := rfl
  owners := rfl
  canonical _ _ hmem := absurd hmem List.not_mem_nil
  entries i _ _ hi := absurd hi (by simp)

/-- Going on does not change which declarations have entries of their own. -/
theorem Leads.owners_eq {R : Nat → Comment → Comment → Prop} (h : p.Leads R p') :
    p'.owners = p.owners := by
  obtain ⟨added, horigins, hadded⟩ := h.origins
  rw [owners, owners, horigins, List.filterMap_append, List.filterMap_eq_nil_iff.2 hadded,
    List.append_nil]

theorem Leads.own_iff {R : Nat → Comment → Comment → Prop} (h : p.Leads R p') {i : Nat} :
    p'.origins[i]? = some (.own node) ↔ p.origins[i]? = some (.own node) := by
  obtain ⟨added, horigins, hadded⟩ := h.origins
  rw [horigins]
  by_cases hi : i < p.origins.length
  · rw [List.getElem?_append_left hi]
  · rw [List.getElem?_append_right (Nat.le_of_not_lt hi), List.getElem?_eq_none (Nat.le_of_not_lt hi)]
    refine ⟨fun hown => ?_, fun hown => absurd hown (by simp)⟩
    exact absurd (hadded _ (List.mem_of_getElem? hown)) (by simp [EntryOrigin.own?])

theorem Aligned.lt_size (hp : p.Aligned) {i : Nat} {origin : EntryOrigin}
    (hi : p.origins[i]? = some origin) : i < p.comments.size := by
  rw [← hp]
  exact (List.getElem?_eq_some_iff.1 hi).1

/-- The pass in which the entry of a declaration has been started. -/
def starting (t : Tree) (node : NodeId) (p : Pass) : Pass :=
  { p with
    comments := p.comments.push (startingComment t node)
    origins := p.origins ++ [.own node] }

theorem aligned_starting (hp : p.Aligned) (t : Tree) (node : NodeId) : (p.starting t node).Aligned := by
  show (p.origins ++ [EntryOrigin.own node]).length = (p.comments.push _).size
  rw [List.length_append, Collection.size_push, hp, List.length_singleton]

theorem owners_starting (t : Tree) (node : NodeId) (p : Pass) :
    (p.starting t node).owners = p.owners ++ [node] := by
  rw [owners, starting, List.filterMap_append]
  rfl

theorem origins_starting_self (hp : p.Aligned) (t : Tree) (node : NodeId) :
    (p.starting t node).origins[p.comments.size]? = some (.own node) := by
  rw [← hp]
  exact List.getElem?_concat_length

theorem origins_starting_of_lt (hp : p.Aligned) (t : Tree) (node : NodeId) {i : Nat}
    (hi : i < p.comments.size) : (p.starting t node).origins[i]? = p.origins[i]? := by
  rw [← hp] at hi
  exact List.getElem?_append_left hi

/-- An entry of its own is the one that has been started, or it was there before. -/
theorem own_starting_cases (hp : p.Aligned) {i : Nat} {owner : NodeId}
    (h : (p.starting t node).origins[i]? = some (.own owner)) :
    (i = p.comments.size ∧ owner = node) ∨
      (i ≠ p.comments.size ∧ p.origins[i]? = some (.own owner) ∧
        (p.starting t node).comments.get i = p.comments.get i) := by
  have hlt := (aligned_starting hp t node).lt_size h
  rw [starting, Collection.size_push] at hlt
  by_cases hlast : i = p.comments.size
  · rw [hlast, origins_starting_self hp t node] at h
    cases h
    exact .inl ⟨hlast, rfl⟩
  · have hbefore : i < p.comments.size := by omega
    rw [origins_starting_of_lt hp t node hbefore] at h
    exact .inr ⟨hlast, h, Collection.get_push_of_lt hbefore _⟩

namespace Documents

/-- What leaves the entries of declarations with a tag of their own as they are. -/
theorem leads (hp : p.Documents t done) {R : Nat → Comment → Comment → Prop} (h : p.Leads R p')
    (hR : ∀ (i : Nat) node tag c c', p.origins[i]? = some (.own node) → t.ownTag? node = some tag →
      R i c c' → c.Keeps c') : p'.Documents t done where
  aligned := h.aligned hp.aligned
  owners := by rw [h.owners_eq, hp.owners]
  canonical key first hmem := by
    rw [h.canonical] at hmem
    obtain ⟨node, hown, hnone⟩ := hp.canonical key first hmem
    exact ⟨node, h.own_iff.2 hown, hnone⟩
  entries i node tag hi htag := by
    have hown : p.origins[i]? = some (.own node) := h.own_iff.1 hi
    have hentry := h.entries i (hp.aligned.lt_size hown)
    exact (hp.entries i node tag hown htag).keeps (hR i node tag _ _ hown htag hentry)

/-- A declaration without a tag of its own does not count. -/
theorem skip (hp : p.Documents t done) (hother : t.ownTag? node = none) :
    p.Documents t (done ++ [node]) := by
  refine ⟨hp.aligned, ?_, hp.canonical, hp.entries⟩
  rw [hp.owners, List.filter_append, List.filter_singleton, Tree.hasOwnTag, hother]
  exact (List.append_nil _).symm

/-- The entry of a declaration without a tag of its own says nothing yet. -/
theorem start (hp : p.Documents t done) (hother : t.ownTag? node = none) :
    (p.starting t node).Documents t done where
  aligned := aligned_starting hp.aligned t node
  owners := by
    rw [owners_starting, List.filter_append, List.filter_singleton, Tree.hasOwnTag, hother, hp.owners]
    exact List.append_nil _
  canonical key first hmem := by
    obtain ⟨owner, hown, hnone⟩ := hp.canonical key first hmem
    refine ⟨owner, ?_, hnone⟩
    rw [origins_starting_of_lt hp.aligned t node (hp.aligned.lt_size hown)]
    exact hown
  entries i owner tag hi htag := by
    rcases own_starting_cases hp.aligned hi with ⟨-, rfl⟩ | ⟨-, hbefore, hentry⟩
    · rw [hother] at htag
      cases htag
    · rw [hentry]
      exact hp.entries i owner tag hbefore htag

/-- The entry of a declaration with a tag of its own is the last one that counts, and what is built
there is what it has to say. -/
theorem own (hp : p.Documents t done) (hown : t.ownTag? node = some tag) {ks : List String}
    (h : (p.starting t node).Leads (fun i c c' =>
      (i = p.comments.size → Comment.Writes (startingComment t node) ks c c' ∧
        ∀ fact ∈ tag :: ownerFacts t node, c'.hasTag fact.1 fact.2 = true) ∧
      (i ≠ p.comments.size → c' = c)) p') : p'.Documents t (done ++ [node]) where
  aligned := h.aligned (aligned_starting hp.aligned t node)
  owners := by
    rw [h.owners_eq, owners_starting, List.filter_append, List.filter_append, hp.owners]
  canonical key first hmem := by
    rw [h.canonical] at hmem
    obtain ⟨owner, howner, hnone⟩ := hp.canonical key first hmem
    refine ⟨owner, h.own_iff.2 ?_, hnone⟩
    rw [origins_starting_of_lt hp.aligned t node (hp.aligned.lt_size howner)]
    exact howner
  entries i owner tag' hi htag' := by
    have hstarted := h.own_iff.1 hi
    obtain ⟨hat, hoff⟩ := h.entries i ((aligned_starting hp.aligned t node).lt_size hstarted)
    rcases own_starting_cases hp.aligned hstarted with ⟨hlast, rfl⟩ | ⟨hne, hbefore, hentry⟩
    · -- The entry started out as the hand-written comment, and only builders have changed it.
      obtain rfl : tag = tag' := Option.some.inj (hown.symm.trans htag')
      obtain ⟨hwrites, hfacts⟩ := hat hlast
      refine ⟨hfacts, fun hnodup => hwrites.enriches hnodup ?_⟩
      rw [hlast, starting, Collection.get_push_size]
      exact .refl _
    · rw [hoff hne, hentry]
      exact hp.entries i owner tag' hbefore htag'

/-- Merging the entry of a declaration without a tag of its own. -/
theorem merges (hp : p.Documents t done) {id : Nat} (hid : p.origins[id]? = some (.own node))
    (hother : t.ownTag? node = none) (horigins : p'.origins = p.origins)
    (h : p.comments.Merges id p'.comments) : p'.Documents t done where
  aligned := by
    rw [Aligned, horigins, h.size_eq]
    exact hp.aligned
  owners := by
    rw [Pass.owners, horigins]
    exact hp.owners
  canonical key first hmem := by
    rw [horigins]
    rcases h.canonical key first hmem with hbefore | rfl
    · exact hp.canonical key first hbefore
    · exact ⟨node, hid, hother⟩
  entries i owner tag hi htag := by
    rw [horigins] at hi
    -- Neither the entry that is merged nor a canonical one belongs to such a declaration.
    have hne : i ≠ id := by
      rintro rfl
      rw [hid] at hi
      cases hi
      rw [hother] at htag
      cases htag
    have hcanonical : ∀ key, (key, i) ∉ p.comments.canonical := by
      intro key hmem
      obtain ⟨other, hown, hnone⟩ := hp.canonical key i hmem
      rw [hown] at hi
      cases hi
      rw [hnone] at htag
      cases htag
    rw [h.entries i (hp.aligned.lt_size hi) hne hcanonical]
    exact hp.entries i owner tag hi htag

end Documents

end Pass

/-! ## Runs -/

/-- One more declaration. -/
theorem Pass.Documents.step (ht : t.Placed) (hp : p.Documents t done)
    (hrun : (document t table node).run p = .ok ((), p')) : p'.Documents t (done ++ [node]) := by
  cases htag : t.ownTag? node with
  | some tag =>
    have howns : Owns t node _ (document t table node) := document_own ht htag
    obtain ⟨body, ks, hdocument, hbuilds⟩ := howns
    rw [hdocument] at hrun
    obtain ⟨id, q, hstart, hrest⟩ := run_bind_eq_ok.1 hrun
    cases hstart
    exact hp.own htag (hbuilds _ _ () p' hrest)
  | none =>
    have hstarted := (hp.skip htag).start htag
    have hself := origins_starting_self hp.aligned t node
    -- The entry of the declaration itself does not count, so it may change in any way.
    have htouched : ∀ {body : Nat → Synthesis Unit} {q : Pass},
        (∀ id, Touches id (body id)) →
        (body p.comments.size).run (p.starting t node) = .ok ((), q) →
        q.Documents t (done ++ [node]) ∧ q.origins[p.comments.size]? = some (.own node) := by
      intro body q hbody hrest
      have hleads := hbody _ _ () q hrest
      refine ⟨hstarted.leads hleads ?_, hleads.own_iff.2 hself⟩
      intro i owner tag c c' hown howntag hentry
      have hne : i ≠ p.comments.size := by
        rintro rfl
        rw [hself] at hown
        cases hown
        rw [htag] at howntag
        cases howntag
      rw [hentry.2 hne]
      exact .refl c
    have hother : Step _ (document t table node) ∨ Repeats t node _ := document_other htag
    rcases hother with hstep | ⟨body, hbody, hdocument | hdocument⟩
    · exact (hp.skip htag).leads (hstep p () p' hrun) fun _ _ _ _ _ _ _ hkeeps => hkeeps
    · rw [hdocument] at hrun
      obtain ⟨id, q, hstart, hrest⟩ := run_bind_eq_ok.1 hrun
      cases hstart
      exact (htouched hbody hrest).1
    · rw [hdocument] at hrun
      obtain ⟨id, q, hstart, hrest⟩ := run_bind_eq_ok.1 hrun
      cases hstart
      obtain ⟨⟨⟩, q, htouch, hmerge⟩ := run_bind_eq_ok.1 hrest
      obtain ⟨hq, hown⟩ := htouched hbody htouch
      obtain ⟨horigins, hmerges⟩ := mergeRepeated_merges hmerge
      exact hq.merges hown htag horigins hmerges

theorem Pass.Documents.run (ht : t.Placed) (nodes : List NodeId) (hp : p.Documents t done)
    (hrun : (documentAll t table nodes).run p = .ok ((), p')) : p'.Documents t (done ++ nodes) := by
  -- The declarations that have been passed grow by one with each step.
  induction nodes generalizing done p with
  | nil =>
    cases hrun
    rw [List.append_nil]
    exact hp
  | cons node nodes ih =>
    obtain ⟨⟨⟩, q, hfirst, hrest⟩ := run_bind_eq_ok.1 hrun
    have hmore := ih (hp.step ht hfirst) hrest
    rw [List.append_assoc] at hmore
    exact hmore

theorem documents_runPass (ht : t.Placed) (hrun : t.runPass table = .ok p) :
    p.Documents t t.preorder :=
  Pass.Documents.run ht t.preorder (Pass.documents_nil t) (run_documentAll_of_runPass hrun)

/-! ## One entry each -/

/-- What does not occur twice among some elements has one position. -/
theorem exists_index_of_mem {α : Type} {xs : List α} {x : α} (hmem : x ∈ xs)
    (hpairwise : xs.Pairwise fun a b => ¬(a = x ∧ b = x)) : ∃ i : Nat, ∀ j : Nat, xs[j]? = some x ↔ j = i := by
  obtain ⟨i, hi⟩ := List.mem_iff_getElem?.1 hmem
  have hdistinct : ∀ a b : Nat, a < b → xs[a]? = some x → xs[b]? ≠ some x := by
    intro a b hlt ha hb
    obtain ⟨ha', hxa⟩ := List.getElem?_eq_some_iff.1 ha
    obtain ⟨hb', hxb⟩ := List.getElem?_eq_some_iff.1 hb
    exact List.pairwise_iff_getElem.1 hpairwise a b ha' hb' hlt ⟨hxa, hxb⟩
  refine ⟨i, fun j => ⟨fun hj => ?_, fun hj => by rw [hj, hi]⟩⟩
  rcases Nat.lt_trichotomy j i with hlt | heq | hlt
  · exact absurd hi (hdistinct j i hlt hj)
  · exact heq
  · exact absurd hj (hdistinct i j hlt hi)

/-- Each declaration with a tag of its own has exactly one entry of its own. -/
theorem Pass.Documents.exists_position (hp : p.Documents t done) (hnodup : done.Nodup)
    (hmem : node ∈ done) (hown : t.hasOwnTag node = true) :
    ∃ i : Nat, ∀ j : Nat, p.origins[j]? = some (.own node) ↔ j = i := by
  have howners : (p.owners.filter t.hasOwnTag).Nodup := by
    rw [hp.owners]
    exact hnodup.filter _
  have hlisted : node ∈ p.owners := by
    have : node ∈ p.owners.filter t.hasOwnTag := by
      rw [hp.owners]
      exact List.mem_filter.2 ⟨hmem, hown⟩
    exact (List.mem_filter.1 this).1
  obtain ⟨origin, horigin, howned⟩ := List.mem_filterMap.1 hlisted
  obtain rfl : origin = .own node := by
    cases origin with
    | own other => exact congrArg EntryOrigin.own (Option.some.inj howned)
    | callback other => cases howned
    | signature other => cases howned
    | inline owner other => cases howned
  -- Two entries of one declaration would make the declaration occur twice among the owners.
  rw [List.Nodup, List.pairwise_filter, Pass.owners, List.pairwise_filterMap] at howners
  refine exists_index_of_mem horigin (howners.imp ?_)
  rintro a b hdifferent ⟨rfl, rfl⟩
  exact hdifferent node rfl node rfl hown hown rfl

theorem exists_runPass_of_collect {cs : Collection} (hcollect : t.collect table = .ok cs) :
    ∃ pass, t.runPass table = .ok pass ∧ pass.comments = cs := by
  rw [Tree.collect] at hcollect
  cases hpass : t.runPass table with
  | error e =>
    rw [hpass] at hcollect
    cases hcollect
  | ok pass =>
    rw [hpass] at hcollect
    cases hcollect
    exact ⟨pass, rfl, rfl⟩

theorem exists_own_entry (ht : t.Placed) (hrun : t.runPass table = .ok p) (hnode : node < t.size)
    (htag : t.ownTag? node = some tag) :
    ∃ (i : Nat) (entry : Comment), (∀ j : Nat, p.origins[j]? = some (.own node) ↔ j = i) ∧
      p.comments.entries[i]? = some entry ∧ t.OwnEntry node tag entry := by
  have hp := documents_runPass ht hrun
  have hown : t.hasOwnTag node = true := by
    rw [Tree.hasOwnTag, htag]
    rfl
  obtain ⟨i, hi⟩ := hp.exists_position ht.nodup_preorder (ht.mem_preorder.2 hnode) hown
  have hlt : i < p.comments.size := hp.aligned.lt_size ((hi i).2 rfl)
  have hentry := hp.entries i node tag ((hi i).2 rfl) htag
  refine ⟨i, p.comments.get i, hi, ?_, hentry⟩
  rw [Collection.get, List.getD_eq_getElem?_getD, List.getElem?_eq_getElem hlt]
  rfl

end

/-- No declaration is lost and none is documented twice. The declarations with a tag of their own have
one entry each, in the order of the tree, and in the end each of these entries has the tag and names
the owner. -/
theorem Source.ModuleForm.own_entries_of_collect (form : Source.ModuleForm) (path : String)
    (table : SymbolTable) (cs : Collection) (hcollect : (form.toTree path).collect table = .ok cs) :
    ∃ pass, (form.toTree path).runPass table = .ok pass ∧ pass.comments = cs ∧
      pass.owners.filter (form.toTree path).hasOwnTag =
        ((form.toTree path).below 0).filter (form.toTree path).hasOwnTag ∧
      ∀ (node : NodeId) (tag : String × Option String), node < (form.toTree path).size →
        (form.toTree path).ownTag? node = some tag →
        ∃ (i : Nat) (entry : Comment), (∀ j : Nat, pass.origins[j]? = some (.own node) ↔ j = i) ∧
          cs.entries[i]? = some entry ∧ entry.isEmpty = false ∧ entry.hasTag tag.1 tag.2 = true ∧
          ∀ owner, (form.toTree path).ownerName node = .ok (some owner) →
            entry.hasTag "memberof" (some owner) = true := by
  have ht : (form.toTree path).Placed := placed_toTree path form
  obtain ⟨pass, hrun, rfl⟩ := exists_runPass_of_collect hcollect
  refine ⟨pass, hrun, rfl, ?_, ?_⟩
  · rw [← ht.preorder_eq_below]
    exact (documents_runPass ht hrun).owners
  · intro node tag hnode htag
    obtain ⟨i, entry, hi, hentry, hown⟩ := exists_own_entry ht hrun hnode htag
    have hself : entry.hasTag tag.1 tag.2 = true := hown.facts tag List.mem_cons_self
    refine ⟨i, entry, hi, hentry, Comment.isEmpty_of_hasTag hself, hself, ?_⟩
    intro owner howner
    refine hown.facts ("memberof", some owner) (List.mem_cons_of_mem tag ?_)
    rw [Synthesis.ownerFacts, howner]
    exact List.mem_cons_self

/-- A module with a class, whose members have hand-written comments, an interface that is declared twice
and an enumeration. -/
def Source.sampleModule : Source.ModuleForm where
  items :=
    [.classDecl {} "Box"
      { members :=
          [.constructor { doc := some "/** Makes a box.\n * @param width How wide.\n */" } none
            [.mk {} { name := Word.of? "width" } (some (.word "number"))],
          .property {} { name := "open" } (some (.word "boolean")),
          .method { doc := some "/**\n * Moves it.\n * @function wrong\n * @todo speed\n */" } "move" {}
            {}] },
    .interface {} "Shape" [] [] [.property {} "area" false none],
    .interface {} "Shape" [] [] [.property {} "edge" false none],
    .enum {} "Side" [{ name := "left" }]]

theorem Source.sampleModule_collects :
    ∃ cs, (sampleModule.toTree "box.ts").collect {} = .ok cs := by
  have hok : ((sampleModule.toTree "box.ts").collect {}).isOk = true := by decide +kernel
  cases hcollect : (sampleModule.toTree "box.ts").collect {} with
  | error e =>
    rw [hcollect] at hok
    cases hok
  | ok cs => exact ⟨cs, rfl⟩

/-- The hand-written comment of the method claims another name. -/
theorem Source.ModuleForm.own_entries_of_collect_sampleModule :
    ∃ cs pass, (sampleModule.toTree "box.ts").collect {} = .ok cs ∧
      (sampleModule.toTree "box.ts").runPass {} = .ok pass ∧ pass.comments = cs ∧
      pass.owners.filter (sampleModule.toTree "box.ts").hasOwnTag = [1, 2, 4, 5, 7, 9, 10] ∧
      ∃ (i : Nat) (entry : Comment), (∀ j : Nat, pass.origins[j]? = some (.own 5) ↔ j = i) ∧
        cs.entries[i]? = some entry ∧ entry.isEmpty = false ∧
        entry.hasTag "function" (some "move") = true ∧ entry.hasTag "memberof" (some "Box") = true := by
  obtain ⟨cs, hcollect⟩ := sampleModule_collects
  obtain ⟨pass, hrun, hcomments, howners, hentries⟩ :=
    own_entries_of_collect sampleModule "box.ts" {} cs hcollect
  obtain ⟨i, entry, hi, hentry, hne, htag, howner⟩ :=
    hentries 5 ("function", some "move") (by decide +kernel) (by decide +kernel)
  refine ⟨cs, pass, hcollect, hrun, hcomments, ?_, i, entry, hi, hentry, hne, htag, ?_⟩
  · rw [howners]
    decide +kernel
  · exact howner "Box" (by decide +kernel)

/-- Hand-written prose is kept. When a hand-written comment has at most one tag for each parameter, the
entry of the declaration has its description and begins with its tags, the kind and the description of
each being what they were. -/
theorem Source.ModuleForm.handWritten_kept_of_collect (form : Source.ModuleForm) (path : String)
    (table : SymbolTable) (cs : Collection) (hcollect : (form.toTree path).collect table = .ok cs) :
    ∃ pass, (form.toTree path).runPass table = .ok pass ∧ pass.comments = cs ∧
      ∀ (node : NodeId) (h : Comment), node < (form.toTree path).size →
        (form.toTree path).hasOwnTag node = true →
        ((form.toTree path).handWritten? node).getD Comment.empty = h → h.paramNames.Nodup →
        ∃ (i : Nat) (entry : Comment), (∀ j : Nat, pass.origins[j]? = some (.own node) ↔ j = i) ∧
          cs.entries[i]? = some entry ∧ entry.description = h.description ∧
          h.tags.length ≤ entry.tags.length ∧
          ∀ (k : Nat) (tag : Tag), h.tags[k]? = some tag → ∃ tag', entry.tags[k]? = some tag' ∧
            tag'.kind = tag.kind ∧ tag'.description = tag.description := by
  have ht : (form.toTree path).Placed := placed_toTree path form
  obtain ⟨pass, hrun, rfl⟩ := exists_runPass_of_collect hcollect
  refine ⟨pass, hrun, rfl, ?_⟩
  rintro node h hnode hown rfl hnodup
  obtain ⟨tag, htag⟩ := Option.isSome_iff_exists.1 hown
  obtain ⟨i, entry, hi, hentry, hownEntry⟩ := exists_own_entry ht hrun hnode htag
  have henriches := hownEntry.enriches hnodup
  refine ⟨i, entry, hi, hentry, henriches.description, henriches.length_le, ?_⟩
  intro k tag hk
  obtain ⟨tag', hk', hkind, hdescription, -⟩ := henriches.tags k tag hk
  exact ⟨tag', hk', hkind, hdescription⟩

/-- The constructor of the class documents its parameter. -/
theorem Source.ModuleForm.handWritten_kept_of_collect_sampleModule :
    ∃ cs pass, (sampleModule.toTree "box.ts").collect {} = .ok cs ∧
      (sampleModule.toTree "box.ts").runPass {} = .ok pass ∧ pass.comments = cs ∧
      ∃ (i : Nat) (entry : Comment), (∀ j : Nat, pass.origins[j]? = some (.own 2) ↔ j = i) ∧
        cs.entries[i]? = some entry ∧ entry.description = some "Makes a box." ∧
        ∃ tag, entry.tags[0]? = some tag ∧ tag.kind = "param" ∧ tag.description = some "How wide." := by
  obtain ⟨cs, hcollect⟩ := sampleModule_collects
  obtain ⟨pass, hrun, hcomments, hentries⟩ :=
    handWritten_kept_of_collect sampleModule "box.ts" {} cs hcollect
  obtain ⟨i, entry, hi, hentry, hdescription, -, htags⟩ :=
    hentries 2
      { description := some "Makes a box."
        tags := [{ kind := "param", name := some "width", description := some "How wide." }] }
      (by decide +kernel) (by decide +kernel) (by decide +kernel) (by decide +kernel)
  obtain ⟨tag, htag, hkind, htext⟩ := htags 0 _ rfl
  exact ⟨cs, pass, hcollect, hrun, hcomments, i, entry, hi, hentry, hdescription, tag, htag, hkind, htext⟩

end DocBlock
