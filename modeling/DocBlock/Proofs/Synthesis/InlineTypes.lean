import DocBlock.Proofs.Synthesis.Books

/-! # Links to inline types

When a pass names the type of a declaration, each inline type in it gets an entry. No type is named twice
(`Pass.Hosted`), since each one is named while the declaration that it belongs to is documented, so each
inline type has one entry (`Pass.Linked`). The name under which the type refers to the inline type is the
long name that its entry has in the end. -/

namespace DocBlock

/-- Whether an entry was made for an inline type. -/
def EntryOrigin.isInline : EntryOrigin → Bool
  | .inline _ _ => true
  | _ => false

/-! ## Which types have been named -/

namespace Pass

variable {t : Tree} {table : SymbolTable} {p p' : Pass} {done : List Nat} {node id : Nat}
  {origin : EntryOrigin} {links : List (EntryOrigin × Comment)} {names : List NodeId}

/-- A pass that has named the types of different nodes, each of them a part of one of `done`. -/
structure Hosted (t : Tree) (done : List Nat) (p : Pass) : Prop where
  nodup : p.named.Nodup
  hosts : ∀ m : Nat, m ∈ p.named → m < t.size ∧ ∃ d : Nat, d ∈ done ∧ t.host? m = some d

theorem Hosted.step (h : p.Hosted t done) (hnode : node ∉ done) (hnames : t.Under (some node) [node] names)
    (hp' : p'.named = p.named ++ names) : p'.Hosted t (done ++ [node]) where
  nodup := by
    rw [hp', List.nodup_append]
    refine ⟨h.nodup, hnames.nodup, ?_⟩
    rintro m hm _ hm' rfl
    obtain ⟨-, d, hd, hhost⟩ := h.hosts m hm
    obtain ⟨-, hhost', -⟩ := hnames.below m hm'
    rw [hhost'] at hhost
    rw [Option.some.inj hhost] at hnode
    exact hnode hd
  hosts m hm := by
    rw [hp'] at hm
    rcases List.mem_append.1 hm with hm | hm
    · obtain ⟨hlt, d, hd, hhost⟩ := h.hosts m hm
      exact ⟨hlt, d, List.mem_append_left _ hd, hhost⟩
    · obtain ⟨hlt, hhost, -⟩ := hnames.below m hm
      exact ⟨hlt, node, List.mem_append_right _ (List.mem_singleton_self node), hhost⟩

/-! ## Entries of inline types -/

/-- A pass whose entries of inline types are those that the named types ask for. -/
structure Linked (t : Tree) (table : SymbolTable) (p : Pass) : Prop where
  aligned : p.Aligned
  resolved : ∀ m ∈ p.named, t.HasTypeName table m
  origins : (p.origins.filter EntryOrigin.isInline).Perm (p.named.flatMap (t.inlineOrigins table))
  entries : ∀ (i : Nat) m a, p.origins[i]? = some (.inline m a) → t.LinkedEntry m a (p.comments.get i)

namespace Linked

/-- Nothing changes where no entry of an inline type does. -/
theorem of_same (h : p.Linked t table) (haligned : p'.Aligned) (horigins : p'.origins = p.origins)
    (hnamed : p'.named = p.named)
    (hentries : ∀ (i : Nat) m a, p.origins[i]? = some (.inline m a) →
      t.LinkedEntry m a (p.comments.get i) → t.LinkedEntry m a (p'.comments.get i)) :
    p'.Linked t table where
  aligned := haligned
  resolved := by
    rw [hnamed]
    exact h.resolved
  origins := by
    rw [horigins, hnamed]
    exact h.origins
  entries i m a hi := by
    rw [horigins] at hi
    exact hentries i m a hi (h.entries i m a hi)

theorem fill (h : p.Linked t table) {i : Nat} {c : Comment}
    (hc : Comment.Spares ["property"] (p.comments.get i) c) : (p.fill i c).Linked t table := by
  refine h.of_same (h.aligned.fill i c) rfl rfl ?_
  intro j m a hj hentry
  by_cases hij : i = j
  · rw [← hij] at hentry hj ⊢
    rw [get_fill_self (h.aligned.lt_size hj)]
    exact hentry.spares hc
  · rw [get_fill_of_ne hij]
    exact hentry

theorem sight (h : p.Linked t table) (key : DeclKey) (id : Nat) (seen : Comment) :
    (p.sight key id seen).Linked t table := by
  refine h.of_same (h.aligned.sight key id seen) rfl rfl ?_
  intro i m a _ hentry
  rw [get_sight]
  exact hentry

theorem unite (h : p.Linked t table) (hp : p.Enrolled t) (hown : p.origins[id]? = some (.own node))
    (key : DeclKey) : (p.unite key id).Linked t table := by
  have hmerges := p.comments.enroll_merges key id
  refine h.of_same ?_ rfl rfl ?_
  · have hsize : (p.unite key id).comments.size = p.comments.size := hmerges.size_eq
    rw [Aligned, hsize]
    exact h.aligned
  · intro i m a hi hentry
    have hget : (p.unite key id).comments.get i = p.comments.get i := by
      refine hmerges.entries i (h.aligned.lt_size hi) ?_ ?_
      · rintro rfl
        rw [hown] at hi
        cases hi
      · intro key' hmem
        obtain ⟨n, hn, -⟩ := hp.canonical key' i hmem
        rw [hn] at hi
        cases hi
    rw [hget]
    exact hentry

/-- New entries: one that is not for an inline type, and those of some types that are named. -/
theorem link (h : p.Linked t table) (hlinks : t.Links table [] links names)
    (others : List (EntryOrigin × Comment)) (hothers : ∀ o ∈ others, o.1.isInline = false) :
    (p.link (others ++ links) names).Linked t table where
  aligned := h.aligned.link _ _
  resolved m hm := by
    rcases List.mem_append.1 hm with hm | hm
    · exact h.resolved m hm
    · exact hlinks.resolved m hm
  origins := by
    have hinline : (links.map Prod.fst).filter EntryOrigin.isInline = links.map Prod.fst := by
      rw [List.filter_eq_self]
      intro o ho
      obtain ⟨link, hlink, rfl⟩ := List.mem_map.1 ho
      obtain ⟨m, a, hm, -⟩ := hlinks.entries link hlink
      rw [hm]
      rfl
    have hnone : (others.map Prod.fst).filter EntryOrigin.isInline = [] := by
      rw [List.filter_eq_nil_iff]
      intro o ho
      obtain ⟨other, hother, rfl⟩ := List.mem_map.1 ho
      rw [hothers other hother]
      exact Bool.false_ne_true
    show ((p.origins ++ (others ++ links).map Prod.fst).filter EntryOrigin.isInline).Perm
      ((p.named ++ names).flatMap (t.inlineOrigins table))
    rw [List.map_append, List.filter_append, List.filter_append, hinline, hnone, List.nil_append,
      List.flatMap_append]
    exact h.origins.append hlinks.origins
  entries i m a hi := by
    rcases h.aligned.link_cases hi with ⟨hbefore, hget⟩ | hnew
    · rw [hget]
      exact h.entries i m a hbefore
    · rcases List.mem_append.1 hnew with hother | hlink
      · cases hothers _ hother
      · obtain ⟨m', a', horigin, hentry⟩ := hlinks.entries _ hlink
        cases horigin
        exact hentry

theorem link_cons (h : p.Linked t table) (hlinks : t.Links table [] links names)
    (horigin : origin.isInline = false) (c : Comment) :
    (p.link ((origin, c) :: links) names).Linked t table := by
  refine h.link hlinks [(origin, c)] fun o ho => ?_
  rw [List.mem_singleton.1 ho]
  exact horigin

theorem counts (h : p.Linked t table) (horigin : origin.isInline = false)
    (hcounts : t.Counts table origin node names p p') : p'.Linked t table := by
  obtain ⟨key, seen, c, links, -, hlinks, -, rfl⟩ := hcounts
  exact (h.sight key p.comments.size seen).link_cons hlinks horigin c

end Linked

end Pass

/-! ## One declaration -/

namespace Tree

variable {t : Tree} {table : SymbolTable} {p p' : Pass} {node : Nat} {origin : EntryOrigin}
  {names : List NodeId} {blocks : List (EntryOrigin × NodeId)}

theorem CountsAll.named (h : t.CountsAll table blocks names p p') : p'.named = p.named ++ names := by
  have hnamed := h.carry (J := fun _ named q => q.named = p.named ++ named) ?_ [] [] ?_
  · exact hnamed
  · rintro done named origin node names q q' hq ⟨key, seen, c, links, -, -, -, rfl⟩
    show q.named ++ names = _
    rw [hq, List.append_assoc]
  · exact (List.append_nil _).symm

/-- Counted entries are not those of inline types. -/
theorem isInline_of_mem_counted {block : EntryOrigin × NodeId} (hblock : block ∈ t.counted node) :
    block.1.isInline = false := by
  rcases mem_counted hblock with ⟨hself, -⟩ | ⟨s, hcallback | hsignature⟩
  · rw [hself]
    rfl
  · rw [hcallback]
    rfl
  · rw [hsignature]
    rfl

theorem CountsAll.linked (h : t.CountsAll table blocks names p p')
    (hblocks : ∀ block ∈ blocks, block.1.isInline = false) (hp : p.Linked t table) :
    p'.Linked t table := by
  induction h with
  | nil p => exact hp
  | cons hfirst _ ih =>
    exact ih (fun block hblock => hblocks block (List.mem_cons_of_mem _ hblock))
      (hp.counts (hblocks _ List.mem_cons_self) hfirst)

/-- Documenting a declaration makes the entries of the inline types in the types it names. -/
theorem Documented.linked (h : t.Documented table node p p') (hp : p.Enrolled t)
    (hlinked : p.Linked t table) : p'.Linked t table := by
  have hopen : ∀ c, (p.link [(.own node, c)] []).Linked t table :=
    hlinked.link_cons (t.links_nil table) rfl
  cases h with
  | passed => exact hlinked
  | property _ _ _ _ _ _ hlinks =>
    refine Pass.Linked.link (hlinked.fill ?_) hlinks [] fun _ ho => absurd ho List.not_mem_nil
    refine .put ?_ _ _ _
    exact fun _ => rfl
  | plain _ _ hlinks => exact hlinked.link_cons hlinks rfl _
  | numbered _ _ hcounts => exact hlinked.counts rfl hcounts
  | collapsed _ hcounts => exact hcounts.linked (fun _ => isInline_of_mem_counted) (hopen _)
  | merged _ _ hcounts =>
    have hown := hcounts.keeps (p.lt_size_new _ _ _ _) (hp.aligned.origins_new _ _ _ _)
    exact (hcounts.linked (fun _ => isInline_of_mem_counted) (hopen _)).unite
      (hcounts.enrolled (hp.link _ _)) hown.2 _

/-- The types that are named for a declaration are those of the declaration and its parts. -/
theorem Documented.named (h : t.Documented table node p p') :
    ∃ names, t.Under (some node) [node] names ∧ p'.named = p.named ++ names := by
  cases h with
  | passed => exact ⟨[], t.under_nil _ _, (List.append_nil _).symm⟩
  | property _ _ _ _ _ _ _ hnames => exact ⟨_, hnames, rfl⟩
  | plain _ _ _ hnames => exact ⟨_, hnames, rfl⟩
  | numbered _ _ hcounts hnames =>
    obtain ⟨key, seen, c, links, -, -, -, rfl⟩ := hcounts
    exact ⟨_, hnames, rfl⟩
  | collapsed _ hcounts hnames =>
    refine ⟨_, hnames, hcounts.named.trans ?_⟩
    show (p.named ++ []) ++ _ = _
    rw [List.append_nil]
  | merged _ _ hcounts hnames =>
    refine ⟨_, hnames, hcounts.named.trans ?_⟩
    show (p.named ++ []) ++ _ = _
    rw [List.append_nil]

end Tree

/-! ## All declarations -/

/-- Inline types are linked after each declaration of the pre-order. -/
theorem linked_documentAll {t : Tree} {table : SymbolTable} {p : Pass} {done rest : List Nat}
    (hr : t.Rooted) (ht : t.Inlined) (hsplit : t.preorder = done ++ rest)
    (hrun : (Synthesis.documentAll t table done).run {} = .ok ((), p)) :
    p.Hosted t done ∧ p.Linked t table := by
  have hnil : Pass.Hosted t [] {} ∧ Pass.Enrolled t {} ∧ Pass.Linked t table {} :=
    ⟨⟨List.nodup_nil, fun _ hm => absurd hm List.not_mem_nil⟩,
      ⟨rfl, fun _ _ hmem => absurd hmem List.not_mem_nil⟩,
      ⟨rfl, fun _ hm => absurd hm List.not_mem_nil, .refl _, fun _ _ _ hi => absurd hi (by simp)⟩⟩
  have hsplit' : t.preorder = [] ++ (done ++ rest) := hsplit
  have hall := Synthesis.documentAll_induction hr ht
    (J := fun done p => p.Hosted t done ∧ p.Enrolled t ∧ p.Linked t table) ?_ hsplit' hnil hrun
  · exact ⟨hall.1, hall.2.2⟩
  · rintro done node rest p p' hsplit ⟨hhosted, hp, hlinked⟩ hdocumented
    obtain ⟨names, hnames, hp'⟩ := hdocumented.named
    refine ⟨hhosted.step ?_ hnames hp', hdocumented.enrolled hp, hdocumented.linked hp hlinked⟩
    have hnodup := hr.nodup_preorder
    rw [hsplit, List.nodup_append] at hnodup
    exact fun hmem => hnodup.2.2 node hmem node List.mem_cons_self rfl

theorem linked_runPass {t : Tree} {table : SymbolTable} {p : Pass} (hr : t.Rooted) (ht : t.Inlined)
    (hrun : t.runPass table = .ok p) : p.Hosted t t.preorder ∧ p.Linked t table :=
  linked_documentAll hr ht (List.append_nil _).symm (Synthesis.run_documentAll_of_runPass hrun)

section

variable {t : Tree} {table : SymbolTable} {p : Pass} {done : List Nat} {n a : Nat}

theorem Tree.mem_inlineOrigins {origin : EntryOrigin} (h : origin ∈ t.inlineOrigins table n) :
    ∃ a, origin = .inline n a ∧ a ∈ t.inlines n := by
  rw [inlineOrigins] at h
  split at h
  · rename_i result hresult
    obtain ⟨a, ha, rfl⟩ := List.mem_map.1 h
    exact ⟨a, rfl, (resolveTypeName_sublist hresult).subset ha⟩
  · exact absurd h List.not_mem_nil

theorem Tree.Inlined.nodup_inlineOrigins (ht : t.Inlined) (n : Nat) :
    (t.inlineOrigins table n).Nodup := by
  rw [inlineOrigins]
  split
  · rename_i result hresult
    refine List.Nodup.map (fun a b hab => ?_)
      ((ht.nodup_inlines n).sublist (resolveTypeName_sublist hresult))
    cases hab
    rfl
  · exact List.nodup_nil

namespace Pass.Linked

/-- An entry of an inline type is there because a type has been named. -/
theorem of_origins (h : p.Linked t table) {j : Nat} (hj : p.origins[j]? = some (.inline n a)) :
    n ∈ p.named ∧ EntryOrigin.inline n a ∈ t.inlineOrigins table n := by
  have hmem : EntryOrigin.inline n a ∈ p.origins.filter EntryOrigin.isInline :=
    List.mem_filter.2 ⟨List.mem_of_getElem? hj, rfl⟩
  obtain ⟨m, hm, horigin⟩ := List.mem_flatMap.1 (h.origins.mem_iff.1 hmem)
  obtain ⟨b, hb, -⟩ := Tree.mem_inlineOrigins horigin
  cases hb
  exact ⟨hm, horigin⟩

/-- No inline type gets two entries for the type of one declaration. -/
theorem nodup (h : p.Linked t table) (ht : t.Inlined) (hhosted : p.Hosted t done) :
    (p.origins.filter EntryOrigin.isInline).Nodup := by
  rw [h.origins.nodup_iff, List.nodup_flatMap]
  refine ⟨fun n _ => ht.nodup_inlineOrigins n, hhosted.nodup.imp ?_⟩
  intro n m hne origin hn hm
  obtain ⟨a, rfl, -⟩ := Tree.mem_inlineOrigins hn
  obtain ⟨b, hab, -⟩ := Tree.mem_inlineOrigins hm
  cases hab
  exact hne rfl

/-- An inline type has one entry, whichever declaration might ask for it. -/
theorem exists_entry (h : p.Linked t table) (ht : t.Inlined) (hhosted : p.Hosted t done)
    (hn : n ∈ p.named) (horigin : EntryOrigin.inline n a ∈ t.inlineOrigins table n) :
    ∃ e : Nat, ∀ j m : Nat, p.origins[j]? = some (.inline m a) ↔ j = e ∧ m = n := by
  have hmem := h.origins.mem_iff.2 (List.mem_flatMap.2 ⟨n, hn, horigin⟩)
  have hnodup := h.nodup ht hhosted
  rw [List.Nodup, List.pairwise_filter] at hnodup
  obtain ⟨e, he⟩ := exists_index_of_mem (List.mem_filter.1 hmem).1 (hnodup.imp (by
    rintro _ _ hdifferent ⟨rfl, rfl⟩
    exact hdifferent rfl rfl rfl))
  -- The declaration is the parent of the inline type.
  have hparent : ∀ m : Nat, EntryOrigin.inline m a ∈ t.inlineOrigins table m → t.parent? a = some m := by
    intro m hm
    obtain ⟨b, hb, hinline⟩ := Tree.mem_inlineOrigins hm
    cases hb
    exact (Tree.mem_children.1 (ht.mem_children hinline)).2
  refine ⟨e, fun j m => ⟨fun hj => ?_, ?_⟩⟩
  · have hmn : m = n :=
      Option.some.inj ((hparent m (h.of_origins hj).2).symm.trans (hparent n horigin))
    rw [hmn] at hj
    exact ⟨(he j).1 hj, hmn⟩
  · rintro ⟨rfl, rfl⟩
    exact (he j).2 rfl

end Pass.Linked

end

/-! ## Long names -/

/-- The name under which other entries refer to an entry of a kind: its name behind its owner, where
an owner without a name is none. -/
def Comment.longName (c : Comment) (kind : String) : Option String :=
  let owner := (c.tag? "memberof" none).bind (·.name)
  let name := (c.tag? kind none).bind (·.name)
  name.map fun name =>
    match owner with
    | some owner => if owner = "" then name else owner ++ "." ++ name
    | none => name

namespace Tree

variable {t : Tree} {n a : NodeId} {c : Comment}

/-- What an inline type is documented as. -/
def inlineKind (t : Tree) (inline : NodeId) : String :=
  if (t.decl inline).isFunctionType then "callback" else "typedef"

theorem inlineTag_kind (t : Tree) (inline : NodeId) (name : String) :
    (t.inlineTag inline name).kind = t.inlineKind inline := by
  rw [inlineTag, inlineKind]
  split <;> rfl

theorem inlineTag_name (t : Tree) (inline : NodeId) (name : String) :
    (t.inlineTag inline name).name = some name := by
  rw [inlineTag]
  split <;> rfl

/-- An inline type is referred to by the long name of its entry. -/
theorem LinkedEntry.anonymousFullName_eq_longName (h : t.LinkedEntry n a c) :
    ∃ long, c.longName (t.inlineKind a) = some long ∧ t.anonymousFullName n = .ok long := by
  obtain ⟨name, owner, hname, howner, htag, hmember⟩ := h
  rw [inlineTag_kind] at htag
  refine ⟨_, ?_, anonymousFullName_eq hname howner⟩
  rw [Comment.longName, Comment.tag?_none, hmember, Comment.tag?_none, htag]
  cases owner with
  | none => simp [inlineTag_name, behindOwner]
  | some owner =>
    by_cases hempty : owner = ""
    · simp [inlineTag_name, behindOwner, hempty]
    · simp [inlineTag_name, behindOwner, hempty]

end Tree

/-- Inline types are linked. For each declaration whose type is named and each inline type in it there is
one entry. In the end it says what the inline type is, by the anonymous name of the declaration, and names
the owner of the declaration; and the type refers to the inline type by the long name of that entry. -/
theorem Source.ModuleForm.inline_entries_of_collect (form : Source.ModuleForm) (path : String)
    (table : SymbolTable) (cs : Collection) (hcollect : (form.toTree path).collect table = .ok cs) :
    ∃ pass, (form.toTree path).runPass table = .ok pass ∧ pass.comments = cs ∧
      ∀ n ∈ pass.named, ∃ result,
        (form.toTree path).resolveTypeName table n ((form.toTree path).decl n).annotation?
          ((form.toTree path).typeOf? table n) = .ok result ∧
        ∀ a ∈ result.anonymous, ∃ e entry,
          (∀ (j : Nat) (m : NodeId), pass.origins[j]? = some (.inline m a) ↔ j = e ∧ m = n) ∧
          cs.entries[e]? = some entry ∧ (form.toTree path).LinkedEntry n a entry ∧
          ∃ long, entry.longName ((form.toTree path).inlineKind a) = some long ∧
            ∀ leaf ∈ [TypeExpr.object a, .function a], (form.toTree path).resolveExpr table n leaf =
              .ok { name := TypeName.format long, anonymous := [a] } := by
  have ht : (form.toTree path).Inlined := inlined_toTree path form
  obtain ⟨pass, hrun, rfl⟩ := exists_runPass_of_collect hcollect
  obtain ⟨hhosted, hlinked⟩ := linked_runPass (placed_toTree path form).toRooted ht hrun
  refine ⟨pass, hrun, rfl, fun n hn => ?_⟩
  obtain ⟨result, hresult⟩ := hlinked.resolved n hn
  refine ⟨result, hresult, fun a ha => ?_⟩
  have hasked : EntryOrigin.inline n a ∈ (form.toTree path).inlineOrigins table n := by
    rw [Tree.inlineOrigins, hresult]
    exact List.mem_map_of_mem ha
  obtain ⟨e, he⟩ := hlinked.exists_entry ht hhosted hn hasked
  have horigin : pass.origins[e]? = some (.inline n a) := (he e n).2 ⟨rfl, rfl⟩
  have hentry := hlinked.entries e n a horigin
  obtain ⟨long, hlong, hname⟩ := hentry.anonymousFullName_eq_longName
  refine ⟨e, _, he, Pass.get_of_lt (hlinked.aligned.lt_size horigin), hentry, long, hlong, ?_⟩
  intro leaf hleaf
  rcases List.mem_cons.1 hleaf with rfl | hleaf
  · exact Tree.resolveExpr_object hname a
  · rw [List.mem_singleton.1 hleaf]
    exact Tree.resolveExpr_function hname a

/-- A function in a namespace that takes an array of objects and a function, which takes an object. -/
def Source.inlineModule : Source.ModuleForm where
  items :=
    [.namespaceDecl {} "geometry" false
      [.function {} "move" { params :=
        [.mk {} { name := Word.of? "by" } (some (.union [.word "number", .array (.object {}
          [.property {} "x" false (some (.word "number"))])])),
        .mk {} { name := Word.of? "then" } (some (.function {} []
          [.mk {} { name := Word.of? "at" } (some (.object {} []))] (.word "void")))] }]]

/-- The object that the function in the second parameter takes has the last entry, and the parameter
refers to it by its long name. -/
theorem Source.ModuleForm.inline_entries_of_collect_inlineModule :
    ∃ cs pass entry long, (inlineModule.toTree "geometry.ts").collect {} = .ok cs ∧
      (inlineModule.toTree "geometry.ts").runPass {} = .ok pass ∧ pass.comments = cs ∧
      pass.named = [3, 6, 8, 5] ∧
      (∀ (j : Nat) (m : NodeId), pass.origins[j]? = some (.inline m 9) ↔ j = 4 ∧ m = 8) ∧
      cs.entries[4]? = some entry ∧ (inlineModule.toTree "geometry.ts").LinkedEntry 8 9 entry ∧
      entry.longName "typedef" = some long ∧ TypeName.format long = "geometry.ThenAtType" := by
  obtain ⟨cs, hcollect⟩ := Error.exists_of_isOk
    (by decide +kernel : ((inlineModule.toTree "geometry.ts").collect {}).isOk = true)
  obtain ⟨pass, hrun, hcomments, hlinked⟩ :=
    inline_entries_of_collect inlineModule "geometry.ts" {} cs hcollect
  have hbooks : (((inlineModule.toTree "geometry.ts").runPass {}).toOption.map fun p =>
      (p.named, p.origins[4]?)) = some ([3, 6, 8, 5], some (.inline 8 9)) := by decide +kernel
  rw [hrun] at hbooks
  have hnamed : pass.named = [3, 6, 8, 5] := (Prod.mk.inj (Option.some.inj hbooks)).1
  have horigin : pass.origins[4]? = some (.inline 8 9) := (Prod.mk.inj (Option.some.inj hbooks)).2
  obtain ⟨result, hresult, hinlines⟩ := hlinked 8 (by rw [hnamed]; decide)
  have hanonymous : ((inlineModule.toTree "geometry.ts").resolveTypeName {} 8
      ((inlineModule.toTree "geometry.ts").decl 8).annotation?
      ((inlineModule.toTree "geometry.ts").typeOf? {} 8)).toOption.map (·.anonymous) = some [9] := by
    decide +kernel
  rw [hresult] at hanonymous
  replace hanonymous : result.anonymous = [9] := Option.some.inj hanonymous
  obtain ⟨e, entry, he, hentry, hlinkedEntry, long, hlong, hleaf⟩ := hinlines 9
    (by rw [hanonymous]; decide)
  obtain ⟨rfl, -⟩ := (he 4 8).1 horigin
  have hname : ((inlineModule.toTree "geometry.ts").resolveExpr {} 8 (.object 9)).toOption.map (·.name) =
      some "geometry.ThenAtType" := by decide +kernel
  rw [hleaf _ List.mem_cons_self] at hname
  exact ⟨cs, pass, entry, long, hcollect, hrun, hcomments, hnamed, he, hentry, hlinkedEntry, hlong,
    Option.some.inj hname⟩

end DocBlock
