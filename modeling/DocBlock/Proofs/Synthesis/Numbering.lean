import DocBlock.Proofs.Source.Inlined
import DocBlock.Proofs.Synthesis.Books

/-! # Repetitions are numbered from two

The entries of declarations that may be repeated are counted, each under its owner and name. The book of
sightings lists them in the order of the tree, and the `i`-th one under a key has the number `i` when
`i` is at least two (`Pass.Numbers`): the number only depends on the sightings under the same key.
Nothing that happens later to an entry touches its number, since only the entries of merged declarations
are written into each other. -/

namespace DocBlock

/-- How often something has been counted, when it has been counted at all. -/
def Collection.tally : Nat → Option Nat
  | 0 => none
  | n + 1 => some (n + 1)

open Collection (tally)
open Synthesis (keyOf)

namespace Pass

variable {t : Tree} {table : SymbolTable} {p p' : Pass} {blocks : List (EntryOrigin × NodeId)}
  {origin : EntryOrigin} {node id : Nat} {names : List NodeId}

/-- The sightings that are counted, oldest first. -/
def counted (p : Pass) : List Sighting :=
  p.sightings.filter fun s => !s.merged

/-- The sightings that are counted under a key, oldest first. -/
def countedUnder (p : Pass) (key : DeclKey) : List Sighting :=
  p.counted.filter fun s => s.key == key

/-- A pass in which the entries `blocks` have been counted, and have their numbers. -/
structure Numbers (t : Tree) (blocks : List (EntryOrigin × NodeId)) (p : Pass) : Prop where
  listed : List.Forall₂ (fun s block => p.origins[s.entry]? = some block.1 ∧ keyOf t block.2 = .ok s.key)
    p.counted blocks
  books : ∀ key, p.comments.sightings.lookup key = tally (p.countedUnder key).length
  entries : ∀ key (i : Nat) s origin, (p.countedUnder key)[i]? = some s →
    p.origins[s.entry]? = some origin → (p.comments.get s.entry).tagsOf "variation" =
      ((t.seed origin).numbered ((tally i).map (· + 1))).tagsOf "variation"

theorem numbers_nil (t : Tree) : Numbers t [] {} where
  listed := .nil
  books _ := rfl
  entries _ _ _ _ hi := absurd hi (by simp [countedUnder, counted])

namespace Numbers

theorem exists_block (h : p.Numbers t blocks) {s : Sighting} (hs : s ∈ p.counted) :
    ∃ block ∈ blocks, p.origins[s.entry]? = some block.1 := by
  obtain ⟨block, hblock, horigin, -⟩ := exists_mem_of_forall₂ h.listed hs
  exact ⟨block, hblock, horigin⟩

/-- Nothing changes where no counted entry loses its origin or its number. -/
theorem of_same (h : p.Numbers t blocks) (hcounted : p'.counted = p.counted)
    (hbook : p'.comments.sightings = p.comments.sightings)
    (horigins : ∀ (i : Nat) origin, p.origins[i]? = some origin → p'.origins[i]? = some origin)
    (hentries : ∀ s ∈ p.counted, (p'.comments.get s.entry).tagsOf "variation" =
      (p.comments.get s.entry).tagsOf "variation") : p'.Numbers t blocks where
  listed := by
    rw [hcounted]
    exact h.listed.imp fun s block hlisted => ⟨horigins _ _ hlisted.1, hlisted.2⟩
  books key := by rw [hbook, countedUnder, hcounted, h.books key, countedUnder]
  entries key i s origin hi horigin := by
    rw [countedUnder, hcounted] at hi
    have hs : s ∈ p.counted := (List.mem_filter.1 (List.mem_of_getElem? hi)).1
    obtain ⟨block, -, hblock⟩ := h.exists_block hs
    rw [horigins _ _ hblock] at horigin
    rw [hentries s hs, ← Option.some.inj horigin]
    exact h.entries key i s block.1 hi hblock

theorem link (h : p.Numbers t blocks) (hp : p.Aligned) (links : List (EntryOrigin × Comment))
    (names : List NodeId) : (p.link links names).Numbers t blocks := by
  refine h.of_same rfl rfl (fun i origin hi => origins_link_of_some hi links names) ?_
  intro s hs
  obtain ⟨block, -, hblock⟩ := h.exists_block hs
  rw [get_link_of_lt (hp.lt_size hblock)]

theorem fill (h : p.Numbers t blocks) (hp : p.Aligned) {i : Nat} {c : Comment}
    (hc : Comment.Spares ["property"] (p.comments.get i) c) : (p.fill i c).Numbers t blocks := by
  refine h.of_same rfl rfl (fun _ _ hi => hi) ?_
  intro s hs
  obtain ⟨block, -, hblock⟩ := h.exists_block hs
  by_cases hi : i = s.entry
  · rw [hi, get_fill_self (hp.lt_size hblock), ← hi, hc "variation" (by decide)]
  · rw [get_fill_of_ne hi]

/-- The entry that is merged, and the canonical one, are not counted. -/
theorem unite (h : p.Numbers t blocks) (hp : p.Enrolled t) (hown : p.origins[id]? = some (.own node))
    (hmerged : t.isMerged node = true)
    (hblocks : ∀ block ∈ blocks, ∀ n, block.1 = .own n → t.isMerged n = false) (key : DeclKey) :
    (p.unite key id).Numbers t blocks := by
  refine h.of_same ?_ ?_ (fun _ _ hi => hi) ?_
  · simp [counted, Pass.unite]
  · exact p.sightings_unite key id
  · intro s hs
    obtain ⟨block, hblock, horigin⟩ := h.exists_block hs
    have hother : ∀ {n}, p.origins[s.entry]? = some (.own n) → t.isMerged n = false := by
      intro n hn
      rw [horigin] at hn
      exact hblocks block hblock n (Option.some.inj hn)
    have hne : s.entry ≠ id := by
      intro hid
      rw [← hid] at hown
      rw [hother hown] at hmerged
      cases hmerged
    have hcanonical : ∀ key, (key, s.entry) ∉ p.comments.canonical := by
      intro key hmem
      obtain ⟨n, hn, hcanonical⟩ := hp.canonical key _ hmem
      rw [hother hn] at hcanonical
      cases hcanonical
    have hget := (p.comments.enroll_merges key id).entries _ (hp.aligned.lt_size horigin) hne hcanonical
    rw [← hget]
    rfl

/-- One more entry is counted, under one key. -/
theorem counts (h : p.Numbers t blocks) (hp : p.Aligned)
    (hcounts : t.Counts table origin node names p p') :
    p'.Numbers t (blocks ++ [(origin, node)]) := by
  obtain ⟨key, seen, c, links, hkey, -, htags, rfl⟩ := hcounts
  have hsize := p.size_sight key p.comments.size seen
  have hcounted : ((p.sight key p.comments.size seen).link ((origin, c) :: links) names).counted =
      p.counted ++ [{ key, entry := p.comments.size, merged := false, seen }] := by
    simp [counted, sight, Pass.link]
  have hunder : ∀ key',
      ((p.sight key p.comments.size seen).link ((origin, c) :: links) names).countedUnder key' =
        p.countedUnder key' ++
          if key = key' then [{ key, entry := p.comments.size, merged := false, seen }] else [] := by
    intro key'
    rw [countedUnder, hcounted, List.filter_append, countedUnder]
    by_cases hkey' : key = key'
    · simp [hkey']
    · simp [hkey']
  have hold : ∀ (i : Nat) other, p.origins[i]? = some other →
      ((p.sight key p.comments.size seen).link ((origin, c) :: links) names).origins[i]? = some other := by
    intro i other hi
    have hsighted : (p.sight key p.comments.size seen).origins[i]? = some other := hi
    exact origins_link_of_some hsighted _ _
  have hnew := (hp.sight key p.comments.size seen).origins_new origin c links names
  rw [hsize] at hnew
  refine ⟨?_, ?_, ?_⟩
  · rw [hcounted]
    refine List.rel_append ?_ (.cons ⟨hnew, hkey⟩ .nil)
    exact h.listed.imp fun s block hlisted => ⟨hold _ _ hlisted.1, hlisted.2⟩
  · intro key'
    show (p.comments.count key).1.sightings.lookup key' = _
    rw [Collection.lookup_count, hunder, h.books, h.books]
    by_cases hkey' : key' = key
    · rw [if_pos hkey', if_pos hkey'.symm, hkey', List.length_append, List.length_singleton]
      cases (p.countedUnder key).length <;> rfl
    · rw [if_neg hkey', if_neg (Ne.symm hkey'), List.append_nil]
  · intro key' i s other hi hother
    rw [hunder] at hi
    by_cases hlt : i < (p.countedUnder key').length
    · -- An older entry has kept its number.
      rw [List.getElem?_append_left hlt] at hi
      have hs : s ∈ p.counted := (List.mem_filter.1 (List.mem_of_getElem? hi)).1
      obtain ⟨block, -, hblock⟩ := h.exists_block hs
      rw [hold _ _ hblock] at hother
      rw [get_link_of_lt (by rw [hsize]; exact hp.lt_size hblock), get_sight, ← Option.some.inj hother]
      exact h.entries key' i s block.1 hi hblock
    · -- The new entry has the number that the book gives.
      rw [List.getElem?_append_right (by omega)] at hi
      by_cases hkey' : key = key'
      · rw [if_pos hkey', List.getElem?_singleton] at hi
        split at hi
        · rename_i hzero
          obtain rfl := Option.some.inj hi
          have hlast : i = (p.countedUnder key').length := by omega
          have hentry := (p.sight key p.comments.size seen).get_new origin c links names
          rw [hsize] at hentry
          rw [hnew] at hother
          rw [hentry, htags, Collection.number_count, h.books, ← Option.some.inj hother, hlast, hkey']
        · cases hi
      · rw [if_neg hkey'] at hi
        cases hi

end Numbers

end Pass

namespace Tree

variable {t : Tree} {table : SymbolTable} {p p' : Pass} {blocks : List (EntryOrigin × NodeId)}
  {node : Nat} {names : List NodeId}

/-- An entry of a declaration that is counted is not merged. -/
theorem isMerged_of_mem_counted {block : EntryOrigin × NodeId} (hblock : block ∈ t.counted node) {n : Nat}
    (hown : block.1 = .own n) : t.isMerged n = false := by
  rcases mem_counted hblock with ⟨hself, hmerged⟩ | ⟨s, hcallback | hsignature⟩
  · rw [hself] at hown
    cases hown
    exact hmerged
  · rw [hcallback] at hown
    cases hown
  · rw [hsignature] at hown
    cases hown

theorem CountsAll.numbers (h : t.CountsAll table blocks names p p')
    {done : List (EntryOrigin × NodeId)} (hp : p.Aligned) (hnumbers : p.Numbers t done) :
    p'.Numbers t (done ++ blocks) := by
  have hboth := h.carry (J := fun done _ p => p.Aligned ∧ p.Numbers t done) ?_ done [] ⟨hp, hnumbers⟩
  · exact hboth.2
  · rintro done named origin node names p p' ⟨hp, hnumbers⟩ hcounts
    exact ⟨hcounts.aligned hp, hnumbers.counts hp hcounts⟩

/-- Documenting a declaration numbers the entries that are counted. -/
theorem Documented.numbers (h : t.Documented table node p p') {done : List Nat} (hp : p.Enrolled t)
    (hnumbers : p.Numbers t (done.flatMap t.counted)) :
    p'.Numbers t ((done ++ [node]).flatMap t.counted) := by
  rw [List.flatMap_append, List.flatMap_singleton]
  cases h with
  | passed hcounted =>
    rw [hcounted, List.append_nil]
    exact hnumbers
  | property hcounted =>
    rw [hcounted, List.append_nil]
    refine (hnumbers.fill hp.aligned ?_).link (hp.aligned.fill _ _) _ _
    refine .put ?_ _ _ _
    exact fun _ => rfl
  | plain hcounted =>
    rw [hcounted, List.append_nil]
    exact hnumbers.link hp.aligned _ _
  | numbered hcounted _ hcounts =>
    rw [hcounted]
    exact hnumbers.counts hp.aligned hcounts
  | collapsed _ hcounts => exact hcounts.numbers (hp.aligned.link _ _) (hnumbers.link hp.aligned _ _)
  | merged hmerged _ hcounts =>
    have hown := hcounts.keeps (p.lt_size_new _ _ _ _) (hp.aligned.origins_new _ _ _ _)
    refine (hcounts.numbers (hp.aligned.link _ _) (hnumbers.link hp.aligned _ _)).unite
      (hcounts.enrolled (hp.link _ _)) hown.2 hmerged ?_ _
    intro block hblock n hn
    rcases List.mem_append.1 hblock with hblock | hblock
    · obtain ⟨other, -, hother⟩ := List.mem_flatMap.1 hblock
      exact isMerged_of_mem_counted hother hn
    · exact isMerged_of_mem_counted hblock hn

/-- The entries that are counted under a key, in the order of the tree. -/
def countedUnder (t : Tree) (key : DeclKey) : List EntryOrigin :=
  (((t.below 0).flatMap t.counted).filter fun block => (keyOf t block.2).toOption == some key).map Prod.fst

end Tree

theorem Pass.Numbers.countedUnder {t : Tree} {p : Pass} (h : p.Numbers t ((t.below 0).flatMap t.counted))
    (key : DeclKey) :
    (p.countedUnder key).map (fun s => p.origins[s.entry]?) = (t.countedUnder key).map some := by
  rw [Pass.countedUnder, map_origins_under h.listed key, Tree.countedUnder, List.map_map]
  rfl

theorem numbers_runPass {t : Tree} {table : SymbolTable} {p : Pass} (hr : t.Rooted) (ht : t.Inlined)
    (hrun : t.runPass table = .ok p) : p.Enrolled t ∧ p.Numbers t (t.preorder.flatMap t.counted) := by
  refine Synthesis.runPass_induction hr ht
    (J := fun done p => p.Enrolled t ∧ p.Numbers t (done.flatMap t.counted)) ?_ ?_ hrun
  · exact ⟨⟨rfl, fun _ _ hmem => absurd hmem List.not_mem_nil⟩, Pass.numbers_nil t⟩
  · rintro done node rest p p' - ⟨hp, hnumbers⟩ hdocumented
    exact ⟨hdocumented.enrolled hp, hdocumented.numbers hp hnumbers⟩

/-- Repetitions are numbered. The entries that are counted under a key are those of the tree, in order.
From the second one on, the first `variation` tag of the `i`-th entry has the number `i`; the first entry
only has such a tag when it started out with one. -/
theorem Source.ModuleForm.variations_of_collect (form : Source.ModuleForm) (path : String)
    (table : SymbolTable) (cs : Collection) (hcollect : (form.toTree path).collect table = .ok cs) :
    ∃ pass, (form.toTree path).runPass table = .ok pass ∧ pass.comments = cs ∧ ∀ key : DeclKey,
      (pass.countedUnder key).map (fun s => pass.origins[s.entry]?) =
        ((form.toTree path).countedUnder key).map some ∧
      ∀ (i : Nat) (s : Sighting), (pass.countedUnder key)[i]? = some s →
        ∃ origin entry, pass.origins[s.entry]? = some origin ∧ cs.entries[s.entry]? = some entry ∧
          (i = 0 → entry.hasTag "variation" none = true →
            ((form.toTree path).seed origin).hasTag "variation" none = true) ∧
          (1 ≤ i → ∃ tag, entry.tag? "variation" none = some tag ∧ tag.name = some (toString (i + 1))) := by
  have hr : (form.toTree path).Rooted := (placed_toTree path form).toRooted
  obtain ⟨pass, hrun, rfl⟩ := exists_runPass_of_collect hcollect
  obtain ⟨hp, hnumbers⟩ := numbers_runPass hr (inlined_toTree path form) hrun
  rw [hr.preorder_eq_below] at hnumbers
  refine ⟨pass, hrun, rfl, fun key => ⟨hnumbers.countedUnder key, ?_⟩⟩
  intro i s hi
  obtain ⟨block, -, horigin⟩ :=
    hnumbers.exists_block (List.mem_filter.1 (List.mem_of_getElem? hi)).1
  have htags := hnumbers.entries key i s block.1 hi horigin
  refine ⟨block.1, _, horigin, Pass.get_of_lt (hp.aligned.lt_size horigin), ?_, ?_⟩
  · rintro rfl htag
    rw [Comment.hasTag_eq, Comment.tag?_none] at htag ⊢
    rw [htags] at htag
    exact htag
  · intro hle
    obtain ⟨k, rfl⟩ := Nat.exists_eq_add_of_le' hle
    have hfirst := Comment.head?_tagsOf_put
      (f := fun tag => { tag with name := some (toString (k + 1 + 1)) }) (fun _ => rfl)
      ((form.toTree path).seed block.1) "variation"
    rw [Comment.tag?_none, htags]
    exact ⟨_, hfirst, rfl⟩

/-- A module in which a function is declared twice, with an interface of that name between, which is
documented as two callbacks. -/
def Source.overloadedModule : Source.ModuleForm where
  items :=
    [.function { doc := some "/** @variation 9 */" } "open" {},
    .interface {} "open" [] []
      [.callable {} .callSignature none [] [] none, .callable {} .callSignature none [] [] none],
    .interface {} "Shape" [] [] [.callable {} .callSignature none [] [] none, .index],
    .function { doc := some "/** @variation 1 */" } "open" {}]

/-- The second function is the fourth one under its key, whatever its hand-written comment says. -/
theorem Source.ModuleForm.variations_of_collect_overloadedModule :
    ∃ cs pass, (overloadedModule.toTree "open.ts").collect {} = .ok cs ∧
      (overloadedModule.toTree "open.ts").runPass {} = .ok pass ∧ pass.comments = cs ∧
      (pass.countedUnder { owner := none, name := "open" }).map (fun s => pass.origins[s.entry]?) =
        [some (.own 1), some (.callback 3), some (.callback 4), some (.own 7)] ∧
      ∃ s entry tag, (pass.countedUnder { owner := none, name := "open" })[3]? = some s ∧
        cs.entries[s.entry]? = some entry ∧ entry.tag? "variation" none = some tag ∧
        tag.name = some "4" := by
  obtain ⟨cs, hcollect⟩ := Error.exists_of_isOk
    (by decide +kernel : ((overloadedModule.toTree "open.ts").collect {}).isOk = true)
  obtain ⟨pass, hrun, hcomments, hkeys⟩ :=
    variations_of_collect overloadedModule "open.ts" {} cs hcollect
  obtain ⟨hlisted, hentries⟩ := hkeys { owner := none, name := "open" }
  have htree : ((overloadedModule.toTree "open.ts").countedUnder { owner := none, name := "open" }).map
      some = [some (.own 1), some (.callback 3), some (.callback 4), some (.own 7)] := by
    decide +kernel
  rw [htree] at hlisted
  have hfourth := congrArg (fun origins => origins[3]?) hlisted
  rw [List.getElem?_map] at hfourth
  obtain ⟨s, hs, -⟩ := Option.map_eq_some_iff.1 hfourth
  obtain ⟨origin, entry, -, hentry, -, hnumber⟩ := hentries 3 s hs
  obtain ⟨tag, htag, hname⟩ := hnumber (by decide)
  exact ⟨cs, pass, hcollect, hrun, hcomments, hlisted, s, entry, tag, hs, hentry, htag, hname⟩

end DocBlock
