import DocBlock.Proofs.Synthesis.NamedTypes

/-! # What one declaration does to a pass

`Tree.Documented` lists everything that documenting a declaration can do to a pass, and
`documented_of_run` says that it does nothing else. A fact about whole passes is then proved for each
of these cases and carried over all declarations (`runPass_induction`). The cases are few because most
builders only fill one entry: what is left to tell apart is whether the entry is counted, merged or
neither, and whether it is a new one. -/

namespace DocBlock

/-! ## Numbers -/

namespace Comment

variable {c c' : Comment}

/-- A comment with the number of a repetition, where it has one. -/
def numbered (c : Comment) : Option Nat → Comment
  | some n => c.put "variation" none fun tag => { tag with name := some (toString n) }
  | none => c

/-- The number only depends on the tags of its kind. -/
theorem tagsOf_numbered (h : c.tagsOf "variation" = c'.tagsOf "variation") (number : Option Nat) :
    (c.numbered number).tagsOf "variation" = (c'.numbered number).tagsOf "variation" := by
  cases number with
  | none => exact h
  | some n =>
    have hput : ∀ c : Comment, (c.numbered (some n)).tagsOf "variation" = putTag "variation" none
        (fun tag => { tag with name := some (toString n) }) (c.tagsOf "variation") := by
      intro c
      refine tagsOf_put_self ?_ c "variation" none
      exact fun _ => rfl
    rw [hput, hput, h]

end Comment

/-! ## Books of a pass -/

theorem Collection.get_eq_getElem {cs : Collection} {i : Nat} (hi : i < cs.entries.length) :
    cs.get i = cs.entries[i] := by
  rw [get, List.getD_eq_getElem?_getD, List.getElem?_eq_getElem hi]
  rfl

theorem Collection.count_entries (cs : Collection) (entries : List Comment) (key : DeclKey) :
    ({ cs with entries } : Collection).count key =
      ({ (cs.count key).1 with entries }, (cs.count key).2) := by
  unfold Collection.count
  dsimp only
  cases cs.sightings.lookup key <;> rfl

theorem Collection.entries_count (cs : Collection) (key : DeclKey) :
    (cs.count key).1.entries = cs.entries := by
  unfold Collection.count
  cases cs.sightings.lookup key <;> rfl

namespace Pass

variable {p : Pass} {id i : Nat} {key : DeclKey} {seen c : Comment}
  {links : List (EntryOrigin × Comment)} {names : List NodeId}

/-- The pass with one more sighting that is counted. -/
def sight (p : Pass) (key : DeclKey) (id : Nat) (seen : Comment) : Pass :=
  { p with
    comments := (p.comments.count key).1
    sightings := p.sightings ++ [{ key, entry := id, merged := false, seen }] }

/-- The pass with one more sighting that is merged. -/
def unite (p : Pass) (key : DeclKey) (id : Nat) : Pass :=
  { p with
    comments :=
      (p.comments.enroll key id).2.elim (p.comments.enroll key id).1
        ((p.comments.enroll key id).1.merge id)
    sightings := p.sightings ++ [{ key, entry := id, merged := true, seen := p.comments.get id }] }

theorem get_sight (p : Pass) (key : DeclKey) (id : Nat) (seen : Comment) (i : Nat) :
    (p.sight key id seen).comments.get i = p.comments.get i := by
  rw [Collection.get, Collection.get, sight, Collection.entries_count]

theorem size_sight (p : Pass) (key : DeclKey) (id : Nat) (seen : Comment) :
    (p.sight key id seen).comments.size = p.comments.size := by
  rw [Collection.size, Collection.size, sight, Collection.entries_count]

theorem sight_link (p : Pass) (links : List (EntryOrigin × Comment)) (names : List NodeId)
    (key : DeclKey) (id : Nat) (seen : Comment) :
    (p.link links names).sight key id seen = (p.sight key id seen).link links names := by
  simp only [sight, link, Collection.count_entries, Collection.entries_count]

theorem sight_fill (p : Pass) (i : Nat) (c : Comment) (key : DeclKey) (id : Nat) (seen : Comment) :
    (p.fill i c).sight key id seen = (p.sight key id seen).fill i c := by
  simp only [sight, fill, Collection.count_entries, Collection.entries_count]

theorem number_link (p : Pass) (links : List (EntryOrigin × Comment)) (names : List NodeId)
    (key : DeclKey) : ((p.link links names).comments.count key).2 = (p.comments.count key).2 := by
  rw [link, Collection.count_entries]

theorem number_fill (p : Pass) (i : Nat) (c : Comment) (key : DeclKey) :
    ((p.fill i c).comments.count key).2 = (p.comments.count key).2 := by
  rw [fill, Collection.count_entries]

end Pass

namespace Tree

variable {t : Tree} {table : SymbolTable} {origin : EntryOrigin} {node i : Nat} {p p' q : Pass}
  {names names' : List NodeId} {blocks blocks' : List (EntryOrigin × NodeId)} {c : Comment}

/-! ## Counted entries -/

/-- The comment that an entry starts out with. A callback starts as a copy of the entry of its
interface. -/
def seed (t : Tree) : EntryOrigin → Comment
  | .own node => Synthesis.startingComment t node
  | .callback node => (t.parent? node).elim Comment.empty (Synthesis.startingComment t)
  | .signature _ => Comment.empty
  | .inline _ _ => Comment.empty

/-- How a pass goes on with a new entry that is counted as a sighting of the key of `node`: the
`variation` tags are those that the entry had at first, with the number of the sighting. -/
def Counts (t : Tree) (table : SymbolTable) (origin : EntryOrigin) (node : NodeId)
    (names : List NodeId) (p p' : Pass) : Prop :=
  ∃ key seen c links, Synthesis.keyOf t node = .ok key ∧ t.Links table [] links names ∧
    c.tagsOf "variation" = ((t.seed origin).numbered (p.comments.count key).2).tagsOf "variation" ∧
    p' = (p.sight key p.comments.size seen).link ((origin, c) :: links) names

/-- How a pass goes on with several new entries that are counted. -/
inductive CountsAll (t : Tree) (table : SymbolTable) :
    List (EntryOrigin × NodeId) → List NodeId → Pass → Pass → Prop
  | nil (p : Pass) : CountsAll t table [] [] p p
  | cons {origin : EntryOrigin} {node : NodeId} {blocks : List (EntryOrigin × NodeId)}
      {names names' : List NodeId} {p q p' : Pass} (hfirst : t.Counts table origin node names p q)
      (hrest : CountsAll t table blocks names' q p') :
      CountsAll t table ((origin, node) :: blocks) (names ++ names') p p'

theorem CountsAll.append (h : t.CountsAll table blocks names p q)
    (h' : t.CountsAll table blocks' names' q p') :
    t.CountsAll table (blocks ++ blocks') (names ++ names') p p' := by
  induction h with
  | nil p => exact h'
  | cons hfirst _ ih =>
    rw [List.append_assoc]
    exact .cons hfirst (ih h')

theorem Counts.size_lt (h : t.Counts table origin node names p p') :
    p.comments.size < p'.comments.size := by
  obtain ⟨key, seen, c, links, -, -, -, rfl⟩ := h
  rw [Pass.size_link, Pass.size_sight, List.length_cons]
  omega

theorem CountsAll.size_le (h : t.CountsAll table blocks names p p') :
    p.comments.size ≤ p'.comments.size := by
  induction h with
  | nil p => exact Nat.le_refl _
  | cons hfirst _ ih => exact Nat.le_trans (Nat.le_of_lt hfirst.size_lt) ih

theorem Counts.get_of_lt (h : t.Counts table origin node names p p') (hi : i < p.comments.size) :
    p'.comments.get i = p.comments.get i := by
  obtain ⟨key, seen, c, links, -, -, -, rfl⟩ := h
  rw [Pass.get_link_of_lt (by rw [Pass.size_sight]; exact hi), Pass.get_sight]

/-- Counted entries do not depend on the entries before them. -/
theorem Counts.fill (h : t.Counts table origin node names p p') (hi : i < p.comments.size)
    (c : Comment) : t.Counts table origin node names (p.fill i c) (p'.fill i c) := by
  obtain ⟨key, seen, c', links, hkey, hlinks, htags, rfl⟩ := h
  refine ⟨key, seen, c', links, hkey, hlinks, ?_, ?_⟩
  · rw [Pass.number_fill, htags]
  · rw [Pass.fill_link (by rw [Pass.size_sight]; exact hi), Pass.size_fill, Pass.sight_fill]

theorem CountsAll.fill (h : t.CountsAll table blocks names p p') (hi : i < p.comments.size)
    (c : Comment) : t.CountsAll table blocks names (p.fill i c) (p'.fill i c) := by
  induction h with
  | nil p => exact .nil _
  | cons hfirst _ ih => exact .cons (hfirst.fill hi c) (ih (Nat.lt_trans hi hfirst.size_lt))

/-! ## Everything a declaration can do -/

/-- Whether an interface has nothing but call signatures, and is documented as callbacks. -/
def isCollapsed (t : Tree) (node : NodeId) : Bool :=
  match t.decl node with
  | .interface decl =>
    decl.memberCount > 0 && decl.memberCount == (t.callSignatures node).length
  | _ => false

/-- The entries of a declaration that are counted, each with the declaration that gives the key. -/
def counted (t : Tree) (node : NodeId) : List (EntryOrigin × NodeId) :=
  match t.decl node with
  | .callable .function _ => [(.own node, node)]
  | .callable .method _ => [(.own node, node)]
  | .callable .constructor _ => [(.own node, node)]
  | .classDecl _ => [(.own node, node)]
  | .typeAlias _ => [(.own node, node)]
  | .interface _ =>
    if t.isCollapsed node then (t.callSignatures node).map fun s => (.callback s.declaration, node)
    else (t.constructSignatures node ++ t.callSignatures node).map fun s =>
      (.signature s.declaration, s.declaration)
  | _ => []

/-- Whether the entry of a declaration is merged with those of its repetitions. -/
def isMerged (t : Tree) (node : NodeId) : Bool :=
  match t.decl node with
  | .interface _ => !t.isCollapsed node
  | .namespaceDecl _ => true
  | _ => false

/-- The name under which the entry of an inline object type is looked for. -/
def typedefKey (t : Tree) (objectType : NodeId) : Except Error (String × Option String) := do
  let name ← t.anonymousName objectType
  let owner ←
    match t.parent? objectType with
    | some declaration => t.ownerName declaration
    | none => pure none
  return (name, owner)

/-- Everything that documenting a declaration can do to a pass. -/
inductive Documented (t : Tree) (table : SymbolTable) (node : Nat) (p : Pass) : Pass → Prop
  /-- The declaration is passed over. -/
  | passed (hcounted : t.counted node = []) (hmerged : t.isMerged node = false) :
      Documented t table node p p
  /-- A property of an inline object type is written into the first entry of the right name. -/
  | property {objectType i : Nat} {name : String} {owner type : Option String}
      {links : List (EntryOrigin × Comment)} {names : List NodeId} (hcounted : t.counted node = [])
      (hmerged : t.isMerged node = false) (hparent : t.parent? node = some objectType)
      (hobject : (t.decl objectType).isObjectType = true)
      (hkey : t.typedefKey objectType = .ok (name, owner))
      (hfound : p.comments.find? "typedef" name owner = some i)
      (hlinks : t.Links table [] links names) (hnames : t.Under (some node) [node] names) :
      Documented t table node p
        ((p.fill i ((p.comments.get i).put "property" (some ((t.decl node).name?.getD "")) fun tag =>
          { tag with type := type.or tag.type })).link links names)
  /-- The declaration gets an entry that is neither counted nor merged. -/
  | plain {c : Comment} {links : List (EntryOrigin × Comment)} {names : List NodeId}
      (hcounted : t.counted node = []) (hmerged : t.isMerged node = false)
      (hlinks : t.Links table [] links names) (hnames : t.Under (some node) [node] names) :
      Documented t table node p (p.link ((.own node, c) :: links) names)
  /-- The declaration gets an entry that is counted. -/
  | numbered {names : List NodeId} {p' : Pass} (hcounted : t.counted node = [(.own node, node)])
      (hmerged : t.isMerged node = false) (hcounts : t.Counts table (.own node) node names p p')
      (hnames : t.Under (some node) [node] names) : Documented t table node p p'
  /-- The entry of an interface is left empty, and its call signatures are counted. -/
  | collapsed {names : List NodeId} {p' : Pass} (hmerged : t.isMerged node = false)
      (hcounts : t.CountsAll table (t.counted node) names (p.link [(.own node, Comment.empty)] []) p')
      (hnames : t.Under (some node) [node] names) : Documented t table node p p'
  /-- The declaration gets an entry that is merged, after those of its signatures. -/
  | merged {c : Comment} {names : List NodeId} {q : Pass} {key : DeclKey}
      (hmerged : t.isMerged node = true) (hne : c.tags ≠ [])
      (hcounts : t.CountsAll table (t.counted node) names (p.link [(.own node, c)] []) q)
      (hnames : t.Under (some node) [node] names) (hkey : Synthesis.keyOf t node = .ok key) :
      Documented t table node p (q.unite key p.comments.size)

end Tree

namespace Synthesis

open Comment (Spares)

variable {t : Tree} {table : SymbolTable} {id node : Nat} {p p' q : Pass} {kind : String}
  {ks ls : List String} {L : List NodeId → Prop}

/-! ## Counting and merging -/

theorem run_seq_eq_ok {m rest : Synthesis Unit} : (m >>= fun _ => rest).run p = .ok ((), p') ↔
    ∃ q, m.run p = .ok ((), q) ∧ rest.run q = .ok ((), p') := by
  rw [run_bind_eq_ok]
  exact ⟨fun ⟨⟨⟩, q, hm, hrest⟩ => ⟨q, hm, hrest⟩, fun ⟨q, hm, hrest⟩ => ⟨(), q, hm, hrest⟩⟩

theorem run_seq {m rest : Synthesis Unit} (hm : m.run p = .ok ((), q))
    (hrest : rest.run q = .ok ((), p')) : (m >>= fun _ => rest).run p = .ok ((), p') :=
  run_seq_eq_ok.2 ⟨q, hm, hrest⟩

theorem run_addVariation (hid : id < p.comments.size)
    (hrun : (addVariation t id node).run p = .ok ((), p')) :
    ∃ key, keyOf t node = .ok key ∧ p' = (p.sight key id (p.comments.get id)).fill id
      ((p.comments.get id).numbered (p.comments.count key).2) := by
  unfold addVariation at hrun
  obtain ⟨key, q, hlift, hrest⟩ := run_bind_eq_ok.1 hrun
  obtain ⟨hkey, hq⟩ := run_lift_eq_ok.1 hlift
  rw [hq] at hrest
  obtain ⟨⟨⟩, q, hrecord, hrest⟩ := run_bind_eq_ok.1 hrest
  cases hrecord
  obtain ⟨_, _, hget, hrest⟩ := run_bind_eq_ok.1 hrest
  cases hget
  obtain ⟨⟨⟩, q, hset, hlast⟩ := run_bind_eq_ok.1 hrest
  refine ⟨key, hkey, ?_⟩
  have hsight : q = p.sight key id (p.comments.get id) := by
    cases hset
    rfl
  have hid' : id < (p.sight key id (p.comments.get id)).comments.size := by
    rw [Pass.size_sight]
    exact hid
  have hget := p.get_sight key id (p.comments.get id) id
  rw [hsight] at hlast
  change (match (p.comments.count key).2 with
    | some n => setName id "variation" (toString n)
    | none => pure () : Synthesis Unit).run _ = _ at hlast
  cases hnumber : (p.comments.count key).2 with
  | none =>
    rw [hnumber] at hlast
    cases hlast
    have hfill := Pass.fill_get hid'
    rw [hget] at hfill
    exact hfill.symm
  | some n =>
    rw [hnumber] at hlast
    cases hlast
    have hmodify := Pass.modify_eq_fill hid' fun c => c.numbered (some n)
    rw [hget] at hmodify
    exact hmodify

theorem run_mergeRepeated (hrun : (mergeRepeated t id node).run p = .ok ((), p')) :
    ∃ key, keyOf t node = .ok key ∧ p' = p.unite key id := by
  unfold mergeRepeated at hrun
  obtain ⟨key, q, hlift, hrest⟩ := run_bind_eq_ok.1 hrun
  obtain ⟨hkey, hq⟩ := run_lift_eq_ok.1 hlift
  rw [hq] at hrest
  obtain ⟨⟨⟩, q, hrecord, hrest⟩ := run_bind_eq_ok.1 hrest
  cases hrecord
  obtain ⟨_, _, hget, hrest⟩ := run_bind_eq_ok.1 hrest
  cases hget
  cases hrest
  exact ⟨key, hkey, rfl⟩

/-- An entry that is filled, counted and filled again. -/
theorem counts_of_runs {origin : EntryOrigin} {pre post : Synthesis Unit} {L' L'' : List NodeId → Prop}
    {q' : Pass} (hpre : Fills t table p.comments.size (Spares ks) L pre)
    (hpost : Fills t table p.comments.size (Spares ls) L' post) (hks : "variation" ∉ ks)
    (hls : "variation" ∉ ls) (hL : ∀ names names', L names → L' names' → L'' (names ++ names'))
    (hprerun : pre.run (p.link [(origin, t.seed origin)] []) = .ok ((), q))
    (hvariation : (addVariation t p.comments.size node).run q = .ok ((), q'))
    (hpostrun : post.run q' = .ok ((), p')) :
    ∃ names, L'' names ∧ t.Counts table origin node names p p' := by
  obtain ⟨c, links, names, hspares, hlinks, hnames, rfl⟩ := hpre.run_new rfl hprerun
  obtain ⟨key, hkey, rfl⟩ := run_addVariation (p.lt_size_new _ _ _ _) hvariation
  have hsize : p.comments.size = (p.sight key p.comments.size c).comments.size :=
    (p.size_sight _ _ _).symm
  rw [Pass.get_new, Pass.number_link, Pass.sight_link] at hpostrun
  nth_rewrite 2 [hsize] at hpostrun
  rw [Pass.fill_new] at hpostrun
  obtain ⟨c', links', names', hlast, hlinks', hnames', rfl⟩ := hpost.run_new hsize hpostrun
  refine ⟨_, hL _ _ hnames hnames', key, c, c', links ++ links', hkey, hlinks.append hlinks', ?_, rfl⟩
  rw [hlast "variation" hls]
  exact Comment.tagsOf_numbered (hspares "variation" hks) _

/-! ## Declarations with one entry -/

/-- The signature of a declaration, and what follows it. -/
theorem signature_fills (hr : t.Rooted) (ht : t.Inlined) (hnode : node < t.size) {rest : Synthesis Unit}
    (hrest : Fills t table id (Spares ls) Unnamed rest) :
    Fills t table id (Spares (["param", "returns"] ++ ls)) (t.Under (t.host? node) [node])
      (match t.signature? node with
        | some s => addFromSignature t table id s >>= fun _ => rest
        | none => rest) := by
  cases hs : t.signature? node with
  | none =>
    refine (hrest.kinds (List.subset_append_right _ _)).named ?_
    rintro _ rfl
    exact t.under_nil _ _
  | some s => exact (addFromSignature_fills hr ht hnode hs).bind_unnamed fun _ => hrest

theorem documentFunction_counts (hr : t.Rooted) (ht : t.Inlined) (hnode : node < t.size)
    (hrun : (documentFunction t table node).run p = .ok ((), p')) :
    ∃ names, t.Under (t.host? node) [node] names ∧ t.Counts table (.own node) node names p p' := by
  unfold documentFunction at hrun
  obtain ⟨id, q, hstart, hrest⟩ := run_bind_eq_ok.1 hrun
  obtain ⟨rfl, rfl⟩ := run_newEntry hstart
  obtain ⟨⟨⟩, q, hname, hrest⟩ := run_bind_eq_ok.1 hrest
  obtain ⟨⟨⟩, q', hvariation, hpost⟩ := run_bind_eq_ok.1 hrest
  exact counts_of_runs (addName_fills "function")
    (addGeneric_fills.unnamed_bind fun _ =>
      signature_fills hr ht hnode (addParent_fills.unnamed_bind fun _ => addModifier_fills))
    (by decide) (by decide) (fun _ _ h h' => h.append h') hname hvariation hpost

theorem documentClass_counts (hrun : (documentClass t table node).run p = .ok ((), p')) :
    ∃ names, t.Under (t.host? node) [node] names ∧ t.Counts table (.own node) node names p p' := by
  unfold documentClass at hrun
  obtain ⟨id, q, hstart, hrest⟩ := run_bind_eq_ok.1 hrun
  obtain ⟨rfl, rfl⟩ := run_newEntry hstart
  obtain ⟨⟨⟩, q, hname, hrest⟩ := run_bind_eq_ok.1 hrest
  obtain ⟨⟨⟩, q', hvariation, hpost⟩ := run_bind_eq_ok.1 hrest
  refine counts_of_runs (addName_fills "class")
    (addGeneric_fills.unnamed_bind fun _ => addHeritage_fills.unnamed_bind fun _ => addParent_fills)
    (by decide) (by decide) ?_ hname hvariation hpost
  rintro _ _ rfl rfl
  exact t.under_nil _ _

theorem documentConstructor_counts (hr : t.Rooted) (ht : t.Inlined) (hnode : node < t.size)
    (hrun : (documentConstructor t table node).run p = .ok ((), p')) :
    ∃ names, t.Under (t.host? node) [node] names ∧ t.Counts table (.own node) node names p p' := by
  unfold documentConstructor at hrun
  obtain ⟨id, q, hstart, hrest⟩ := run_bind_eq_ok.1 hrun
  obtain ⟨rfl, rfl⟩ := run_newEntry hstart
  obtain ⟨⟨⟩, q, hname, hrest⟩ := run_bind_eq_ok.1 hrest
  obtain ⟨⟨⟩, q', hvariation, hpost⟩ := run_bind_eq_ok.1 hrest
  have hsignature : Fills t table p.comments.size (Spares ["param", "returns"])
      (t.Under (t.host? node) [node])
      (match t.signature? node with
        | some s => addFromSignature t table p.comments.size s
        | none => pure ()) := by
    cases hs : t.signature? node with
    | none => exact .pure (.refl _) (t.under_nil _ _) ()
    | some s => exact addFromSignature_fills hr ht hnode hs
  exact counts_of_runs (ensure_fills "ctor" none) (addParent_fills.unnamed_bind fun _ => hsignature)
    (by decide) (by decide) (fun _ _ h h' => h.append h') hname hvariation hpost

theorem documentAlias_counts (hr : t.Rooted) (ht : t.Inlined) (hnode : node < t.size)
    (hrun : (documentAlias t table node).run p = .ok ((), p')) :
    ∃ names, t.Under (t.host? node) [node] names ∧ t.Counts table (.own node) node names p p' := by
  unfold documentAlias at hrun
  obtain ⟨id, q, hstart, hrest⟩ := run_bind_eq_ok.1 hrun
  obtain ⟨rfl, rfl⟩ := run_newEntry hstart
  obtain ⟨⟨⟩, q, hname, hrest⟩ := run_bind_eq_ok.1 hrest
  obtain ⟨⟨⟩, q', hvariation, hpost⟩ := run_bind_eq_ok.1 hrest
  exact counts_of_runs (addTypedName_fills hr ht hnode "typedef") addParent_fills (by decide) (by decide)
    (fun _ _ h h' => append_unnamed h h') hname hvariation hpost

/-- An entry of a declaration that is filled and nothing else. -/
theorem own_of_run {body : Nat → Synthesis Unit} {S : Comment → Comment → Prop}
    (hrun : (addOwn t node >>= body).run p = .ok ((), p'))
    (hbody : ∀ id, Fills t table id S L (body id)) :
    ∃ c links names, S (startingComment t node) c ∧ t.Links table [] links names ∧ L names ∧
      p' = p.link ((.own node, c) :: links) names := by
  obtain ⟨id, q, hstart, hrest⟩ := run_bind_eq_ok.1 hrun
  obtain ⟨rfl, rfl⟩ := run_newEntry hstart
  exact (hbody p.comments.size).run_new rfl hrest

theorem documentEnum_own (table : SymbolTable) (decl : Enum)
    (hrun : (documentEnum t node decl).run p = .ok ((), p')) :
    ∃ c links names, t.Links table [] links names ∧ t.Under (t.host? node) [node] names ∧
      p' = p.link ((.own node, c) :: links) names := by
  obtain ⟨c, links, names, -, hlinks, rfl, hp'⟩ := own_of_run hrun fun id =>
    (addName_fills "enum").unnamed_bind fun _ => addModifier_fills.unnamed_bind fun _ =>
      addParent_fills.unnamed_bind fun _ => addEnumMembers_fills decl.members
  exact ⟨c, links, [], hlinks, t.under_nil _ _, hp'⟩

theorem documentVariable_own (hr : t.Rooted) (ht : t.Inlined) (hnode : node < t.size)
    (hnone : (t.parent? node).filter (fun p => (t.decl p).isObjectType) = none)
    (hrun : (documentVariable t table node).run p = .ok ((), p')) :
    ∃ c links names, t.Links table [] links names ∧ t.Under (t.host? node) [node] names ∧
      p' = p.link ((.own node, c) :: links) names := by
  unfold documentVariable at hrun
  rw [hnone] at hrun
  obtain ⟨c, links, names, -, hlinks, hnames, hp'⟩ := own_of_run hrun fun id =>
    (addTypedName_fills hr ht hnode "member").bind_unnamed fun _ =>
      addDefault_fills.unnamed_bind fun _ => addParent_fills.unnamed_bind fun _ => addModifier_fills
  exact ⟨c, links, names, hlinks, hnames, hp'⟩

/-! ## Properties of inline types -/

theorem run_findTypedef {objectType : NodeId} {found : Option Nat}
    (hrun : (findTypedef t objectType).run p = .ok (found, q)) :
    ∃ name owner, t.typedefKey objectType = .ok (name, owner) ∧
      found = p.comments.find? "typedef" name owner ∧ q = p := by
  unfold findTypedef at hrun
  obtain ⟨name, p₁, hlift, hrest⟩ := run_bind_eq_ok.1 hrun
  obtain ⟨hname, hp₁⟩ := run_lift_eq_ok.1 hlift
  rw [hp₁] at hrest
  dsimp only at hrest
  cases hparent : t.parent? objectType with
  | none =>
    rw [hparent] at hrest
    cases hrest
    refine ⟨name, none, ?_, rfl, rfl⟩
    rw [Tree.typedefKey, hname, hparent]
    rfl
  | some declaration =>
    rw [hparent] at hrest
    obtain ⟨owner, p₂, hlift, hrest⟩ := run_bind_eq_ok.1 hrest
    obtain ⟨howner, hp₂⟩ := run_lift_eq_ok.1 hlift
    rw [hp₂] at hrest
    cases hrest
    refine ⟨name, owner, ?_, rfl, rfl⟩
    rw [Tree.typedefKey, hname, hparent]
    show (do let owner ← t.ownerName declaration; pure (name, owner)) = _
    rw [howner]
    rfl

theorem lt_of_find? {cs : Collection} {kind name : String} {owner : Option String} {i : Nat}
    (hfound : cs.find? kind name owner = some i) : i < cs.size := by
  obtain ⟨hlt, -⟩ := List.findIdx?_eq_some_iff_getElem.1 hfound
  exact hlt

theorem hasTag_of_find? {cs : Collection} {kind name : String} {owner : Option String} {i : Nat}
    (hfound : cs.find? kind name owner = some i) : (cs.get i).hasTag kind (some name) = true := by
  obtain ⟨hlt, hself, -⟩ := List.findIdx?_eq_some_iff_getElem.1 hfound
  rw [Collection.get_eq_getElem hlt]
  exact (Bool.and_eq_true_iff.1 hself).1

/-- A property of an inline object type goes to the first entry that has the name of the type. -/
theorem documentVariable_property (hr : t.Rooted) (ht : t.Inlined) (hnode : node < t.size)
    {objectType : NodeId} (hparent : t.parent? node = some objectType)
    (hobject : (t.decl objectType).isObjectType = true)
    (hrun : (documentVariable t table node).run p = .ok ((), p')) :
    ∃ name owner, t.typedefKey objectType = .ok (name, owner) ∧
      match p.comments.find? "typedef" name owner with
      | none => p' = p
      | some i => ∃ (type : Option String) (links : List (EntryOrigin × Comment)) (names : List NodeId),
        t.Links table [] links names ∧ t.Under (t.host? node) [node] names ∧
        p' = (p.fill i ((p.comments.get i).put "property" (some ((t.decl node).name?.getD "")) fun tag =>
          { tag with type := type.or tag.type })).link links names := by
  have hsome : (t.parent? node).filter (fun p => (t.decl p).isObjectType) = some objectType :=
    Option.filter_eq_some_iff.2 ⟨hparent, hobject⟩
  unfold documentVariable at hrun
  rw [hsome] at hrun
  obtain ⟨found, q, hfind, hrest⟩ := run_bind_eq_ok.1 hrun
  obtain ⟨name, owner, hkey, rfl, hq⟩ := run_findTypedef hfind
  rw [hq] at hrest
  refine ⟨name, owner, hkey, ?_⟩
  cases hfound : p.comments.find? "typedef" name owner with
  | none =>
    rw [hfound] at hrest
    cases hrest
    rfl
  | some i =>
    rw [hfound] at hrest
    obtain ⟨c, links, names, ⟨type, rfl⟩, hlinks, hnames, hp'⟩ :=
      addTypedefProperty_fills hr ht hnode p () p' (lt_of_find? hfound) hrest
    exact ⟨type, links, names, hlinks, hnames, hp'⟩

/-! ## Interfaces and namespaces -/

theorem signature?_of_mem {role : CallableRole} {s : Signature} {i : Nat}
    (hs : s ∈ t.memberSignatures i role) :
    s.declaration ∈ t.children i ∧ (∃ decl, t.decl s.declaration = .callable role decl) ∧
      t.signature? s.declaration = some s := by
  obtain ⟨j, hj, hsome⟩ := List.mem_filterMap.1 hs
  split at hsome
  · rename_i role' decl hdecl
    split at hsome
    · rename_i hrole
      rw [(signature?_parts hsome).1]
      exact ⟨hj, ⟨decl, by rw [hdecl, hrole]⟩, hsome⟩
    · cases hsome
  · cases hsome

/-- What is found for some elements leads back to these elements, in order. -/
theorem map_filterMap_sublist {α β : Type} {g : α → Option β} {f : β → α}
    (hf : ∀ x y, g x = some y → f y = x) (xs : List α) : ((xs.filterMap g).map f).Sublist xs := by
  induction xs with
  | nil => exact List.Sublist.refl _
  | cons x xs ih =>
    rw [List.filterMap_cons]
    cases hx : g x with
    | none => exact ih.cons x
    | some y =>
      rw [List.map_cons, hf x y hx]
      exact ih.cons_cons x

theorem nodup_declarations (t : Tree) (i : Nat) (role : CallableRole) :
    ((t.memberSignatures i role).map (·.declaration)).Nodup := by
  refine (t.nodup_children i).sublist (map_filterMap_sublist ?_ _)
  intro j s hs
  split at hs
  · split at hs
    · exact (signature?_parts hs).1
    · cases hs
  · cases hs

/-- Entries that are counted, for different children of a declaration. -/
theorem countsAll_of_forM (hr : t.Rooted) {signatures : List Signature} {g : Signature → Synthesis Unit}
    {block : Signature → EntryOrigin × NodeId} {I : Pass → Prop}
    (hchildren : ∀ s ∈ signatures, s.declaration ∈ t.children node)
    (hnodup : (signatures.map (·.declaration)).Nodup)
    (hg : ∀ s ∈ signatures, ∀ p p', I p → (g s).run p = .ok ((), p') → I p' ∧
      ∃ names, t.Under (t.host? node) [s.declaration] names ∧
        t.Counts table (block s).1 (block s).2 names p p')
    (hp : I p) (hrun : (signatures.forM g).run p = .ok ((), p')) :
    ∃ names, t.Under (t.host? node) (signatures.map (·.declaration)) names ∧
      t.CountsAll table (signatures.map block) names p p' := by
  induction signatures generalizing p with
  | nil =>
    cases hrun
    exact ⟨[], t.under_nil _ _, .nil p'⟩
  | cons s signatures ih =>
    obtain ⟨⟨⟩, q, hfirst, hrest⟩ := run_bind_eq_ok.1 hrun
    obtain ⟨hq, names, hnames, hcounts⟩ := hg s List.mem_cons_self p q hp hfirst
    rw [List.map_cons, List.nodup_cons] at hnodup
    obtain ⟨names', hnames', hcounts'⟩ :=
      ih (fun s' hs' => hchildren s' (List.mem_cons_of_mem s hs')) hnodup.2
        (fun s' hs' => hg s' (List.mem_cons_of_mem s hs')) hq hrest
    refine ⟨names ++ names', ?_, .cons hcounts hcounts'⟩
    refine Tree.Under.append hr hnames hnames' (x := node) ?_ ?_ ?_
    · intro k hk
      rw [List.mem_singleton.1 hk]
      exact hchildren s List.mem_cons_self
    · intro k hk
      obtain ⟨s', hs', rfl⟩ := List.mem_map.1 hk
      exact hchildren s' (List.mem_cons_of_mem s hs')
    · rw [List.singleton_disjoint]
      exact hnodup.1

/-- The host of a signature of an interface is the interface. -/
theorem host?_of_signature (hr : t.Rooted) {role : CallableRole} {s : Signature}
    (hrole : role = .callSignature ∨ role = .constructSignature)
    (hs : s ∈ t.memberSignatures node role) : t.host? s.declaration = t.host? node := by
  obtain ⟨hchild, ⟨decl, hdecl⟩, -⟩ := signature?_of_mem hs
  obtain ⟨hsize, hparent⟩ := Tree.mem_children.1 hchild
  refine hr.host?_of_isPart hsize hparent ?_
  rw [hdecl]
  rcases hrole with rfl | rfl <;> rfl

/-- The entries of the signatures of an interface are counted. -/
theorem addSignatureEntries_counts (hr : t.Rooted) (ht : t.Inlined) {role : CallableRole}
    (hrole : role = .callSignature ∨ role = .constructSignature) (hkind : kind ≠ "variation")
    (hrun : (addSignatureEntries t table kind (t.memberSignatures node role)).run p = .ok ((), p')) :
    ∃ names,
      t.Under (t.host? node) ((t.memberSignatures node role).map (·.declaration)) names ∧
      t.CountsAll table
        ((t.memberSignatures node role).map fun s => (.signature s.declaration, s.declaration)) names
        p p' := by
  unfold addSignatureEntries at hrun
  refine countsAll_of_forM (I := fun _ => True) hr (fun s hs => (signature?_of_mem hs).1)
    (nodup_declarations t node role) ?_ trivial hrun
  intro s hs p p' _ hrun
  obtain ⟨hchild, -, hsignature⟩ := signature?_of_mem hs
  obtain ⟨hsize, -⟩ := Tree.mem_children.1 hchild
  obtain ⟨id, q, hstart, hrest⟩ := run_bind_eq_ok.1 hrun
  obtain ⟨rfl, rfl⟩ := run_newEntry hstart
  obtain ⟨⟨⟩, q₁, hensure, hrest⟩ := run_bind_eq_ok.1 hrest
  obtain ⟨⟨⟩, q₂, hgeneric, hrest⟩ := run_bind_eq_ok.1 hrest
  obtain ⟨⟨⟩, q₃, hfacts, hrest⟩ := run_bind_eq_ok.1 hrest
  obtain ⟨⟨⟩, q₄, hparent, hvariation⟩ := run_bind_eq_ok.1 hrest
  have hpre := run_seq hensure (run_seq hgeneric (run_seq hfacts hparent))
  refine ⟨trivial, counts_of_runs
    ((ensure_fills kind none).unnamed_bind fun _ => addGeneric_fills.unnamed_bind fun _ =>
      (addFromSignature_fills hr ht hsize hsignature).bind_unnamed fun _ => addParent_fills)
    (pure_fills : Fills t table _ (Spares []) Unnamed _) ?_ (by decide) ?_ hpre hvariation rfl⟩
  · simp [Ne.symm hkind]
  · rw [← host?_of_signature hr hrole hs]
    exact fun _ _ h h' => append_unnamed h h'

/-- The callbacks of an interface are counted. Each starts as a copy of the entry of the interface. -/
theorem addCallbacks_counts (hr : t.Rooted) (ht : t.Inlined) (hid : id < p.comments.size)
    (hstart : p.comments.get id = startingComment t node)
    (hrun : (addCallbacks t table id node (t.memberSignatures node .callSignature)).run p =
      .ok ((), p')) :
    ∃ names,
      t.Under (t.host? node) ((t.memberSignatures node .callSignature).map (·.declaration)) names ∧
      t.CountsAll table
        ((t.memberSignatures node .callSignature).map fun s => (.callback s.declaration, node)) names
        p p' := by
  unfold addCallbacks at hrun
  refine countsAll_of_forM
    (I := fun p => id < p.comments.size ∧ p.comments.get id = startingComment t node) hr
    (fun s hs => (signature?_of_mem hs).1) (nodup_declarations t node .callSignature) ?_ ⟨hid, hstart⟩ hrun
  rintro s hs p p' ⟨hid, hstart⟩ hrun
  obtain ⟨hchild, -, hsignature⟩ := signature?_of_mem hs
  obtain ⟨hsize, hparent⟩ := Tree.mem_children.1 hchild
  have hseed : t.seed (.callback s.declaration) = p.comments.get id := by
    rw [Tree.seed, hparent, hstart]
    rfl
  obtain ⟨_, _, hget, hrest⟩ := run_bind_eq_ok.1 hrun
  cases hget
  obtain ⟨id', q, hnew, hrest⟩ := run_bind_eq_ok.1 hrest
  obtain ⟨rfl, rfl⟩ := run_newEntry hnew
  obtain ⟨⟨⟩, q₁, hname, hrest⟩ := run_bind_eq_ok.1 hrest
  obtain ⟨⟨⟩, q₂, hgeneric, hrest⟩ := run_bind_eq_ok.1 hrest
  obtain ⟨⟨⟩, q₃, hfacts, hrest⟩ := run_bind_eq_ok.1 hrest
  obtain ⟨⟨⟩, q₄, hmember, hvariation⟩ := run_bind_eq_ok.1 hrest
  rw [← hseed] at hname
  have hpre := run_seq hname (run_seq hgeneric (run_seq hfacts hmember))
  have hcounts : ∃ names, t.Under (t.host? node) [s.declaration] names ∧
      t.Counts table (.callback s.declaration) node names p p' := by
    refine counts_of_runs
      ((addName_fills "callback").unnamed_bind fun _ => addGeneric_fills.unnamed_bind fun _ =>
        (addFromSignature_fills hr ht hsize hsignature).bind_unnamed fun _ => addParent_fills)
      (pure_fills : Fills t table _ (Spares []) Unnamed _) (by decide) (by decide) ?_ hpre hvariation rfl
    rw [← host?_of_signature hr (.inl rfl) hs]
    exact fun _ _ h h' => append_unnamed h h'
  obtain ⟨names, hnames, hcounted⟩ := hcounts
  refine ⟨⟨Nat.lt_trans hid hcounted.size_lt, ?_⟩, names, hnames, hcounted⟩
  rw [hcounted.get_of_lt hid, hstart]

theorem setName_present (kind name : String) :
    Fills t table id (fun _ c' => c'.hasTag kind (some name) = true) Unnamed (setName id kind name) := by
  refine Fills.edit (fun c => Comment.hasTag_put_named c kind ?_ ?_) unnamed_nil
  · exact fun _ => rfl
  · exact fun _ => rfl

/-- A name, and what follows it without touching names of that kind. -/
theorem named_fills (kind name : String) {rest : Synthesis Unit}
    (hrest : Fills t table id (Spares ks) Unnamed rest) (hks : kind ∉ ks) :
    Fills t table id (fun _ c' => c'.tags ≠ []) Unnamed
      (setName id kind name >>= fun _ => rest) := by
  refine (setName_present kind name).bind (fun _ => hrest) ?_ fun _ _ h h' => h.append h'
  intro c c' c'' htag hspares
  refine Comment.tags_ne_nil_of_hasTag (k := kind) (n := some name) ?_
  rw [hspares.hasTag hks, htag]

section

variable {decl : Interface} (hdecl : t.decl node = .interface decl)
include hdecl

theorem callSignatures_interface :
    t.callSignatures node = t.memberSignatures node .callSignature := by
  rw [Tree.callSignatures, hdecl]
  rfl

theorem isCollapsed_interface : t.isCollapsed node =
    (decl.memberCount > 0 && decl.memberCount == (t.callSignatures node).length) := by
  rw [Tree.isCollapsed, hdecl]

/-- An interface that is documented as callbacks. -/
theorem documentInterface_collapsed (hr : t.Rooted) (ht : t.Inlined) (hnode : node < t.size)
    (hcollapsed : t.isCollapsed node = true)
    (hrun : (documentInterface t table node decl).run p = .ok ((), p')) :
    ∃ names, t.Under (t.host? node) [node] names ∧
      t.CountsAll table (t.counted node) names (p.link [(.own node, Comment.empty)] []) p' := by
  have hcounted : t.counted node =
      (t.memberSignatures node .callSignature).map fun s => (.callback s.declaration, node) := by
    rw [Tree.counted, hdecl]
    simp only
    rw [if_pos hcollapsed, callSignatures_interface hdecl]
  unfold documentInterface at hrun
  obtain ⟨id, q, hstart, hrest⟩ := run_bind_eq_ok.1 hrun
  obtain ⟨rfl, rfl⟩ := run_newEntry hstart
  dsimp only at hrest
  rw [← isCollapsed_interface hdecl, if_pos hcollapsed, callSignatures_interface hdecl] at hrest
  obtain ⟨⟨⟩, q, hcallbacks, hclear⟩ := run_bind_eq_ok.1 hrest
  obtain ⟨names, hnames, hcounts⟩ :=
    addCallbacks_counts hr ht (p.lt_size_new _ _ _ _) (p.get_new _ _ _ _) hcallbacks
  refine ⟨names, hnames.up hr hnode ?_, ?_⟩
  · intro k hk
    obtain ⟨s, hs, rfl⟩ := List.mem_map.1 hk
    exact (signature?_of_mem hs).1
  · -- The entry is emptied in the end, which is as if it had been empty all along.
    have hsize := p.lt_size_new (.own node) ((t.handWritten? node).getD Comment.empty) [] []
    have hlast : p' = q.fill p.comments.size Comment.empty := by
      cases hclear
      exact Pass.modify_eq_fill (Nat.lt_of_lt_of_le hsize hcounts.size_le) _
    have hfilled := hcounts.fill hsize Comment.empty
    rw [Pass.fill_new] at hfilled
    rw [hlast, hcounted]
    exact hfilled

/-- Any other interface is merged with its repetitions, after its signatures have been documented. -/
theorem documentInterface_merged (hr : t.Rooted) (ht : t.Inlined) (hnode : node < t.size)
    (hcollapsed : t.isCollapsed node = false)
    (hrun : (documentInterface t table node decl).run p = .ok ((), p')) :
    ∃ c names q key, c.tags ≠ [] ∧ t.Under (t.host? node) [node] names ∧
      t.CountsAll table (t.counted node) names (p.link [(.own node, c)] []) q ∧
      keyOf t node = .ok key ∧ p' = q.unite key p.comments.size := by
  have hcounted : t.counted node =
      ((t.memberSignatures node .constructSignature).map fun s =>
        (.signature s.declaration, s.declaration)) ++
      (t.memberSignatures node .callSignature).map fun s => (.signature s.declaration, s.declaration) := by
    rw [Tree.counted, hdecl]
    simp only
    rw [if_neg (by rw [hcollapsed]; exact Bool.false_ne_true), callSignatures_interface hdecl,
      Tree.constructSignatures, List.map_append]
  unfold documentInterface at hrun
  obtain ⟨id, q, hstart, hrest⟩ := run_bind_eq_ok.1 hrun
  obtain ⟨rfl, rfl⟩ := run_newEntry hstart
  dsimp only at hrest
  rw [← isCollapsed_interface hdecl, if_neg (by rw [hcollapsed]; exact Bool.false_ne_true),
    callSignatures_interface hdecl] at hrest
  obtain ⟨⟨⟩, q₁, hname, hrest⟩ := run_bind_eq_ok.1 hrest
  obtain ⟨⟨⟩, q₂, hgeneric, hrest⟩ := run_bind_eq_ok.1 hrest
  obtain ⟨⟨⟩, q₃, hheritage, hrest⟩ := run_bind_eq_ok.1 hrest
  obtain ⟨⟨⟩, q₄, hmember, hrest⟩ := run_bind_eq_ok.1 hrest
  obtain ⟨⟨⟩, q₅, hconstructs, hrest⟩ := run_bind_eq_ok.1 hrest
  obtain ⟨⟨⟩, q₆, hcalls, hmerge⟩ := run_bind_eq_ok.1 hrest
  obtain ⟨c, links, names, hne, hlinks, rfl, rfl⟩ := Fills.run_new rfl
    (run_seq hname (run_seq hgeneric (run_seq hheritage hmember)))
    (named_fills "interface" _ (addGeneric_fills.unnamed_bind fun _ =>
      addHeritage_fills.unnamed_bind fun _ => addParent_fills) (by decide))
  rw [List.nil_append, hlinks.eq_nil, List.nil_append] at hconstructs
  obtain ⟨names, hnames, hcounts⟩ :=
    addSignatureEntries_counts hr ht (.inr rfl) (by decide) hconstructs
  obtain ⟨names', hnames', hcounts'⟩ := addSignatureEntries_counts hr ht (.inl rfl) (by decide) hcalls
  obtain ⟨key, hkey, rfl⟩ := run_mergeRepeated hmerge
  refine ⟨c, names ++ names', q₆, key, hne, ?_, ?_, hkey, rfl⟩
  · -- A construct signature is no call signature.
    have hchildren : ∀ role k, k ∈ (t.memberSignatures node role).map (·.declaration) →
        k ∈ t.children node ∧ ∃ decl, t.decl k = .callable role decl := by
      intro role k hk
      obtain ⟨s, hs, rfl⟩ := List.mem_map.1 hk
      exact ⟨(signature?_of_mem hs).1, (signature?_of_mem hs).2.1⟩
    have hdisjoint : ((t.memberSignatures node .constructSignature).map (·.declaration)).Disjoint
        ((t.memberSignatures node .callSignature).map (·.declaration)) := by
      intro k hk hk'
      obtain ⟨-, decl, hconstruct⟩ := hchildren _ k hk
      obtain ⟨-, decl', hcall⟩ := hchildren _ k hk'
      rw [hconstruct] at hcall
      cases hcall
    have hboth := Tree.Under.append hr hnames hnames' (fun k hk => (hchildren _ k hk).1)
      (fun k hk => (hchildren _ k hk).1) hdisjoint
    refine hboth.up hr hnode fun k hk => ?_
    rcases List.mem_append.1 hk with hk | hk
    · exact (hchildren _ k hk).1
    · exact (hchildren _ k hk).1
  · rw [hcounted]
    exact hcounts.append hcounts'

end

/-- A namespace is merged with its repetitions. -/
theorem documentNamespace_merged (decl : Namespace)
    (hrun : (documentNamespace t node decl).run p = .ok ((), p')) :
    ∃ c key, c.tags ≠ [] ∧ keyOf t node = .ok key ∧
      p' = (p.link [(.own node, c)] []).unite key p.comments.size := by
  -- The entry that is merged is filled first, in one of two ways.
  have hmerged : ∀ {m : Synthesis Unit} {q : Pass},
      m.run (p.link [(.own node, (t.handWritten? node).getD Comment.empty)] []) = .ok ((), q) →
      Fills t {} p.comments.size (fun _ c' => c'.tags ≠ []) Unnamed m →
      (mergeRepeated t p.comments.size node).run q = .ok ((), p') →
      ∃ c key, c.tags ≠ [] ∧ keyOf t node = .ok key ∧
        p' = (p.link [(.own node, c)] []).unite key p.comments.size := by
    intro m q hfill hfills hmerge
    obtain ⟨c, links, names, hne, hlinks, rfl, rfl⟩ := hfills.run_new rfl hfill
    rw [List.nil_append, hlinks.eq_nil, List.nil_append] at hmerge
    obtain ⟨key, hkey, rfl⟩ := run_mergeRepeated hmerge
    exact ⟨c, key, hne, hkey, rfl⟩
  unfold documentNamespace at hrun
  obtain ⟨id, q, hstart, hrest⟩ := run_bind_eq_ok.1 hrun
  obtain ⟨rfl, rfl⟩ := run_newEntry hstart
  split at hrest
  · obtain ⟨⟨⟩, q, hname, hmerge⟩ := run_bind_eq_ok.1 hrest
    refine hmerged hname ?_ hmerge
    exact (setName_present "module" decl.name).mono (fun _ _ htag => Comment.tags_ne_nil_of_hasTag htag)
      fun _ hnames => hnames
  · obtain ⟨⟨⟩, q, hname, hrest⟩ := run_bind_eq_ok.1 hrest
    obtain ⟨⟨⟩, q', hmember, hmerge⟩ := run_bind_eq_ok.1 hrest
    exact hmerged (run_seq hname hmember) (named_fills "namespace" _ addParent_fills (by decide)) hmerge

/-! ## One declaration -/

/-- A declaration that is no part of another one is documented on its own. -/
theorem under_host (hpart : (t.decl node).isPart = false) {names : List NodeId}
    (hnames : t.Under (t.host? node) [node] names) : t.Under (some node) [node] names := by
  rw [← Tree.host?_self hpart]
  exact hnames

/-- Documenting a declaration does nothing but what `Documented` lists. -/
theorem documented_of_run (hr : t.Rooted) (ht : t.Inlined) (hnode : node < t.size)
    (hrun : (document t table node).run p = .ok ((), p')) : t.Documented table node p p' := by
  -- One case for each kind of declaration.
  unfold document at hrun
  split at hrun
  · rename_i role decl hdecl
    have hpart : (t.decl node).isPart = false := by rw [hdecl]; rfl
    have hcounted : t.counted node = [] := by rw [Tree.counted, hdecl]
    have hmerged : t.isMerged node = false := by rw [Tree.isMerged, hdecl]
    cases hobject : (t.parent? node).filter fun p => (t.decl p).isObjectType with
    | none =>
      obtain ⟨c, links, names, hlinks, hnames, rfl⟩ := documentVariable_own hr ht hnode hobject hrun
      exact .plain hcounted hmerged hlinks (under_host hpart hnames)
    | some objectType =>
      obtain ⟨hparent, hobject⟩ := Option.filter_eq_some_iff.1 hobject
      obtain ⟨name, owner, hkey, hfound⟩ := documentVariable_property hr ht hnode hparent hobject hrun
      split at hfound
      · rw [hfound]
        exact .passed hcounted hmerged
      · rename_i i hi
        obtain ⟨type, links, names, hlinks, hnames, rfl⟩ := hfound
        exact .property hcounted hmerged hparent hobject hkey hi hlinks (under_host hpart hnames)
  · rename_i decl hdecl
    obtain ⟨names, hnames, hcounts⟩ := documentFunction_counts hr ht hnode hrun
    exact .numbered (by rw [Tree.counted, hdecl]) (by rw [Tree.isMerged, hdecl]) hcounts
      (under_host (by rw [hdecl]; rfl) hnames)
  · rename_i decl hdecl
    obtain ⟨names, hnames, hcounts⟩ := documentFunction_counts hr ht hnode hrun
    exact .numbered (by rw [Tree.counted, hdecl]) (by rw [Tree.isMerged, hdecl]) hcounts
      (under_host (by rw [hdecl]; rfl) hnames)
  · rename_i decl hdecl
    obtain ⟨names, hnames, hcounts⟩ := documentConstructor_counts hr ht hnode hrun
    exact .numbered (by rw [Tree.counted, hdecl]) (by rw [Tree.isMerged, hdecl]) hcounts
      (under_host (by rw [hdecl]; rfl) hnames)
  · rename_i decl hdecl
    have hpart : (t.decl node).isPart = false := by rw [hdecl]; rfl
    have hmerged : t.isMerged node = !t.isCollapsed node := by rw [Tree.isMerged, hdecl]
    cases hcollapsed : t.isCollapsed node with
    | true =>
      obtain ⟨names, hnames, hcounts⟩ := documentInterface_collapsed hdecl hr ht hnode hcollapsed hrun
      exact .collapsed (by rw [hmerged, hcollapsed]; rfl) hcounts (under_host hpart hnames)
    | false =>
      obtain ⟨c, names, q, key, hne, hnames, hcounts, hkey, rfl⟩ :=
        documentInterface_merged hdecl hr ht hnode hcollapsed hrun
      exact .merged (by rw [hmerged, hcollapsed]; rfl) hne hcounts (under_host hpart hnames) hkey
  · rename_i decl hdecl
    obtain ⟨names, hnames, hcounts⟩ := documentClass_counts hrun
    exact .numbered (by rw [Tree.counted, hdecl]) (by rw [Tree.isMerged, hdecl]) hcounts
      (under_host (by rw [hdecl]; rfl) hnames)
  · rename_i decl hdecl
    obtain ⟨names, hnames, hcounts⟩ := documentAlias_counts hr ht hnode hrun
    exact .numbered (by rw [Tree.counted, hdecl]) (by rw [Tree.isMerged, hdecl]) hcounts
      (under_host (by rw [hdecl]; rfl) hnames)
  · rename_i decl hdecl
    obtain ⟨c, links, names, hlinks, hnames, rfl⟩ := documentEnum_own table decl hrun
    exact .plain (by rw [Tree.counted, hdecl]) (by rw [Tree.isMerged, hdecl]) hlinks
      (under_host (by rw [hdecl]; rfl) hnames)
  · rename_i decl hdecl
    obtain ⟨c, key, hne, hkey, rfl⟩ := documentNamespace_merged decl hrun
    have hcounted : t.counted node = [] := by rw [Tree.counted, hdecl]
    refine .merged (by rw [Tree.isMerged, hdecl]) hne ?_ (t.under_nil _ _) hkey
    rw [hcounted]
    exact .nil _
  · rename_i hvariable hfunction hmethod hconstructor hinterface hclass halias henum hnamespace
    cases hrun
    refine .passed ?_ ?_
    · rw [Tree.counted]
      split
      · exact absurd ‹_› (hfunction _)
      · exact absurd ‹_› (hmethod _)
      · exact absurd ‹_› (hconstructor _)
      · exact absurd ‹_› (hclass _)
      · exact absurd ‹_› (halias _)
      · exact absurd ‹_› (hinterface _)
      · rfl
    · rw [Tree.isMerged]
      split
      · exact absurd ‹_› (hinterface _)
      · exact absurd ‹_› (hnamespace _)
      · rfl

/-! ## All declarations -/

theorem run_documentAll_append {nodes nodes' : List NodeId} :
    (documentAll t table (nodes ++ nodes')).run p = .ok ((), p') ↔
      ∃ q, (documentAll t table nodes).run p = .ok ((), q) ∧
        (documentAll t table nodes').run q = .ok ((), p') := by
  have happend : documentAll t table (nodes ++ nodes') =
      documentAll t table nodes >>= fun _ => documentAll t table nodes' := List.forM_append
  rw [happend, run_seq_eq_ok]

theorem run_documentAll_cons {nodes : List NodeId} :
    (documentAll t table (node :: nodes)).run p = .ok ((), p') ↔
      ∃ q, (document t table node).run p = .ok ((), q) ∧
        (documentAll t table nodes).run q = .ok ((), p') :=
  run_seq_eq_ok (m := document t table node)

/-- What one more declaration keeps, some more declarations keep. -/
theorem documentAll_induction (hr : t.Rooted) (ht : t.Inlined) {J : List Nat → Pass → Prop}
    (hstep : ∀ (done : List Nat) (node : Nat) (rest : List Nat) (p p' : Pass),
      t.preorder = done ++ node :: rest → J done p → t.Documented table node p p' →
      J (done ++ [node]) p') {done nodes rest : List Nat} (hsplit : t.preorder = done ++ (nodes ++ rest))
    (hp : J done p) (hrun : (documentAll t table nodes).run p = .ok ((), p')) : J (done ++ nodes) p' := by
  induction nodes generalizing done p with
  | nil =>
    cases hrun
    rw [List.append_nil]
    exact hp
  | cons node nodes ih =>
    obtain ⟨q, hfirst, hrest⟩ := run_documentAll_cons.1 hrun
    have hnode : node < t.size := by
      rw [← hr.mem_preorder, hsplit]
      exact List.mem_append_right _ List.mem_cons_self
    have hq := hstep done node (nodes ++ rest) p q hsplit hp (documented_of_run hr ht hnode hfirst)
    have hall : J (done ++ [node] ++ nodes) p' := by
      refine ih ?_ hq hrest
      rw [hsplit, List.append_assoc]
      rfl
    rw [List.append_assoc] at hall
    exact hall

/-- What holds at first, and after one more declaration, holds after all of them. -/
theorem runPass_induction (hr : t.Rooted) (ht : t.Inlined) {J : List Nat → Pass → Prop} (hnil : J [] {})
    (hstep : ∀ (done : List Nat) (node : Nat) (rest : List Nat) (p p' : Pass),
      t.preorder = done ++ node :: rest → J done p → t.Documented table node p p' →
      J (done ++ [node]) p')
    (hrun : t.runPass table = .ok p) : J t.preorder p := by
  have hsplit : t.preorder = [] ++ (t.preorder ++ []) := by rw [List.append_nil, List.nil_append]
  exact documentAll_induction hr ht hstep hsplit hnil (run_documentAll_of_runPass hrun)

end Synthesis

end DocBlock
