import DocBlock.Proofs.Synthesis.InlineTypes

/-! # Properties of inline object types

A property of an inline object type is documented in the entry of the type, which was made before, when the
type that it is a part of was named (`Pass.Continues.origins_of_linked`). That entry is found by its text,
so the property goes to the first entry that has the name and owner of the inline type; this is the entry
of the type itself only where no entry before it has the same name and owner. -/

namespace DocBlock

/-! ## What more declarations leave alone -/

namespace Tree

variable {t : Tree} {table : SymbolTable} {p p' : Pass} {node : Nat} {origin : EntryOrigin}
  {names : List NodeId} {blocks : List (EntryOrigin × NodeId)}

theorem Counts.origins_prefix (h : t.Counts table origin node names p p') :
    p.origins <+: p'.origins := by
  obtain ⟨key, seen, c, links, -, -, -, rfl⟩ := h
  exact List.prefix_append p.origins _

theorem CountsAll.origins_prefix (h : t.CountsAll table blocks names p p') :
    p.origins <+: p'.origins := by
  induction h with
  | nil p => exact List.prefix_refl _
  | cons hfirst _ ih => exact hfirst.origins_prefix.trans ih

/-- The entries that are there keep their origins. -/
theorem Documented.origins_prefix (h : t.Documented table node p p') : p.origins <+: p'.origins := by
  cases h with
  | passed => exact List.prefix_refl _
  | property => exact List.prefix_append p.origins _
  | plain => exact List.prefix_append p.origins _
  | numbered _ _ hcounts => exact hcounts.origins_prefix
  | collapsed _ hcounts => exact (List.prefix_append p.origins _).trans hcounts.origins_prefix
  | merged _ _ hcounts => exact (List.prefix_append p.origins _).trans hcounts.origins_prefix

end Tree

namespace Pass

variable {t : Tree} {table : SymbolTable} {p p' q : Pass} {done more rest : List Nat} {node e D L d : Nat}

/-- How a pass goes on with the declarations `more`. -/
structure Continues (t : Tree) (p : Pass) (more : List Nat) (p' : Pass) : Prop where
  origins : p.origins <+: p'.origins
  named : ∀ m : Nat, m ∈ p'.named → m ∈ p.named ∨ ∃ d : Nat, d ∈ more ∧ t.host? m = some d

theorem Continues.step (h : p.Continues t more p') (hdocumented : t.Documented table node p' q) :
    p.Continues t (more ++ [node]) q where
  origins := h.origins.trans hdocumented.origins_prefix
  named m hm := by
    obtain ⟨names, hnames, hq⟩ := hdocumented.named
    rw [hq] at hm
    rcases List.mem_append.1 hm with hm | hm
    · rcases h.named m hm with hbefore | ⟨d, hd, hhost⟩
      · exact .inl hbefore
      · exact .inr ⟨d, List.mem_append_left _ hd, hhost⟩
    · exact .inr ⟨node, List.mem_append_right _ (List.mem_singleton_self node), (hnames.below m hm).2.1⟩

theorem continues_of_documentAll (hr : t.Rooted) (ht : t.Inlined)
    (hsplit : t.preorder = done ++ (more ++ rest))
    (hrun : (Synthesis.documentAll t table more).run p = .ok ((), p')) : p.Continues t more p' := by
  have hall := Synthesis.documentAll_induction hr ht
    (J := fun all q => ∃ more, all = done ++ more ∧ p.Continues t more q) ?_ hsplit
    ⟨[], (List.append_nil done).symm, List.prefix_refl _, fun _ hm => .inl hm⟩ hrun
  · obtain ⟨more', heq, hcontinues⟩ := hall
    rw [List.append_cancel_left heq]
    exact hcontinues
  · rintro _ node rest q q' - ⟨more, rfl, hcontinues⟩ hdocumented
    exact ⟨more ++ [node], List.append_assoc _ _ _, hcontinues.step hdocumented⟩

/-- The entry of an inline type is there once the declaration is documented that its type is a part of. -/
theorem Continues.origins_of_linked (h : p.Continues t more p') (hr : t.Rooted) (ht : t.Inlined)
    (hsplit : t.preorder = done ++ more) (hp : p.Linked t table) (hhosted : p.Hosted t done)
    (hp' : p'.Linked t table) (hhosted' : p'.Hosted t t.preorder) (hd : d ∈ done)
    (hhost : t.host? D = some d) (hlinked : p'.origins[e]? = some (.inline D L)) :
    p.origins[e]? = some (.inline D L) := by
  obtain ⟨hnamed', horigin⟩ := hp'.of_origins hlinked
  -- No type that is named later is a part of what is documented before.
  have hnamed : D ∈ p.named := by
    rcases h.named D hnamed' with hbefore | ⟨d', hd', hhost'⟩
    · exact hbefore
    · rw [hhost] at hhost'
      have hnodup := hr.nodup_preorder
      rw [hsplit, List.nodup_append] at hnodup
      exact absurd (Option.some.inj hhost') (hnodup.2.2 d hd d' hd')
  obtain ⟨i, hi⟩ := hp.exists_entry ht hhosted hnamed horigin
  obtain ⟨i', hi'⟩ := hp'.exists_entry ht hhosted' hnamed' horigin
  have hbefore : p.origins[i]? = some (.inline D L) := (hi i D).2 ⟨rfl, rfl⟩
  have hafter : p'.origins[i]? = some (.inline D L) := by
    obtain ⟨hlt, hget⟩ := List.getElem?_eq_some_iff.1 hbefore
    rw [List.prefix_iff_getElem?.1 h.origins i hlt, hget]
  rw [((hi' e D).1 hlinked).1, ← ((hi' i D).1 hafter).1]
  exact hbefore

end Pass

/-! ## The name of an inline object type -/

theorem Decl.eq_objectType {decl : Decl} (h : decl.isObjectType = true) : decl = .objectType := by
  cases decl with
  | objectType => rfl
  | _ => cases h

/-- Whether an entry is a `typedef` of a name, of the owner when there is one. -/
def Comment.isTypedefOf (name : String) (owner : Option String) (c : Comment) : Bool :=
  c.hasTag "typedef" (some name) && owner.all fun o => c.hasTag "memberof" (some o)

namespace Tree

variable {t : Tree} {table : SymbolTable} {c : Comment} {D L : Nat} {name : String} {owner : Option String}

/-- A declaration with an inline object type in its type does not have a function type. -/
theorem Inlined.anonymousSuffix_eq (ht : t.Inlined) (hinline : L ∈ t.inlines D)
    (hobject : (t.decl L).isObjectType = true) : t.anonymousSuffix D = "Type" := by
  rw [inlines] at hinline
  rw [anonymousSuffix]
  cases htype : (t.decl D).annotation? with
  | none => rfl
  | some type =>
    rw [htype] at hinline
    cases type with
    | function a =>
      have hfunction := (ht D _ htype).function a rfl
      rw [← List.mem_singleton.1 hinline, Decl.eq_objectType hobject] at hfunction
      cases hfunction
    | _ => rfl

/-- An inline object type goes by the name of the declaration it is written on. -/
theorem anonymousName_of_inline (hr : t.Rooted) (ht : t.Inlined) (hinline : L ∈ t.inlines D)
    (hobject : (t.decl L).isObjectType = true) (hname : t.anonymousName D = .ok name) :
    t.anonymousName L = .ok name := by
  obtain ⟨hL, hparent⟩ := mem_children.1 (ht.mem_children hinline)
  have hdecl : t.decl L = .objectType := Decl.eq_objectType hobject
  have hsuffix : t.anonymousSuffix L = t.anonymousSuffix D := by
    rw [ht.anonymousSuffix_eq hinline hobject, anonymousSuffix, hdecl]
    rfl
  have hlineage : (t.lineage L).find? (fun a => (t.decl a).namesAnonymous) =
      (t.lineage D).find? fun a => (t.decl a).namesAnonymous := by
    rw [lineage, List.find?_cons_of_neg, hr.ancestors_eq hL hparent]
    rw [hdecl]
    exact Bool.false_ne_true
  rw [anonymousName, hlineage, hsuffix]
  rw [anonymousName] at hname
  cases hfound : (t.lineage D).find? fun a => (t.decl a).namesAnonymous with
  | none =>
    rw [hfound] at hname
    cases hname
  | some a =>
    rw [hfound] at hname
    exact hname

theorem typedefKey_of_inline (hr : t.Rooted) (ht : t.Inlined) (hinline : L ∈ t.inlines D)
    (hobject : (t.decl L).isObjectType = true) (hname : t.anonymousName D = .ok name)
    (howner : t.ownerName D = .ok owner) : t.typedefKey L = .ok (name, owner) := by
  obtain ⟨hL, hparent⟩ := mem_children.1 (ht.mem_children hinline)
  rw [typedefKey, anonymousName_of_inline hr ht hinline hobject hname, hparent]
  show (do let owner ← t.ownerName D; pure (name, owner)) = _
  rw [howner]
  rfl

/-- The entry of an inline object type has its name and owner. -/
theorem LinkedEntry.isTypedefOf (h : t.LinkedEntry D L c) (hobject : (t.decl L).isObjectType = true) :
    ∃ name owner, t.anonymousName D = .ok name ∧ t.ownerName D = .ok owner ∧
      c.isTypedefOf name owner = true := by
  obtain ⟨name, owner, hname, howner, htag, hmember⟩ := h
  refine ⟨name, owner, hname, howner, ?_⟩
  have hinline : t.inlineTag L name = { kind := "typedef", name := some name, type := some "Object" } := by
    rw [inlineTag, Decl.eq_objectType hobject]
    rfl
  rw [hinline] at htag
  have htypedef : c.hasTag "typedef" (some name) = true := by
    rw [Comment.hasTag_eq, Comment.tag?_eq, htag]
    simp [Tag.answers]
  rw [Comment.isTypedefOf, htypedef, Bool.true_and]
  cases owner with
  | none => rfl
  | some o =>
    rw [Option.all_some, Comment.hasTag_eq, Comment.tag?_eq, hmember]
    simp [Tag.answers]

end Tree

/-! ## Where a property goes -/

/-- The first `typedef` of a name is found, not behind any other one. -/
theorem Collection.find?_of_isTypedefOf {cs : Collection} {e : Nat} {name : String} {owner : Option String}
    (he : e < cs.size) (htypedef : (cs.get e).isTypedefOf name owner = true) :
    ∃ i : Nat, cs.find? "typedef" name owner = some i ∧ i ≤ e ∧ (cs.get i).isTypedefOf name owner = true ∧
      ∀ j : Nat, j < i → (cs.get j).isTypedefOf name owner = false := by
  rw [get_eq_getElem he] at htypedef
  cases hfound : cs.find? "typedef" name owner with
  | none =>
    rw [find?, List.findIdx?_eq_none_iff] at hfound
    have hnone : cs.entries[e].isTypedefOf name owner = false := hfound _ (List.getElem_mem he)
    rw [hnone] at htypedef
    cases htypedef
  | some i =>
    obtain ⟨hi, hself, hfirst⟩ := List.findIdx?_eq_some_iff_getElem.1 hfound
    refine ⟨i, rfl, ?_, ?_, ?_⟩
    · by_contra hlt
      exact hfirst e (Nat.lt_of_not_le hlt) htypedef
    · rw [get_eq_getElem hi]
      exact hself
    · intro j hj
      rw [get_eq_getElem (Nat.lt_trans hj hi)]
      exact Bool.eq_false_iff.2 (hfirst j hj)

/-- A property of the name is written into the entry at `i`; the other entries that are there stay as they
are. -/
def Pass.AddsProperty (p : Pass) (i : Nat) (name : String) (p' : Pass) : Prop :=
  (∃ type : Option String, p'.comments.get i =
    (p.comments.get i).put "property" (some name) fun tag => { tag with type := type.or tag.type }) ∧
  ∀ j : Nat, j < p.comments.size → j ≠ i → p'.comments.get j = p.comments.get j

/-- Documenting a property of an inline object type. -/
theorem Synthesis.document_property {t : Tree} {table : SymbolTable} {p p' : Pass} {node e D L : Nat}
    {decl : Variable} {role : VariableRole} (hr : t.Rooted) (ht : t.Inlined) (hnode : node < t.size)
    (hdecl : t.decl node = .variableDecl role decl) (hparent : t.parent? node = some L)
    (hobject : (t.decl L).isObjectType = true) (hp : p.Linked t table)
    (hlinked : p.origins[e]? = some (.inline D L))
    (hrun : (document t table node).run p = .ok ((), p')) :
    ∃ name owner i, t.anonymousName D = .ok name ∧ t.ownerName D = .ok owner ∧ i ≤ e ∧
      (p.comments.get i).isTypedefOf name owner = true ∧
      (∀ j : Nat, j < i → (p.comments.get j).isTypedefOf name owner = false) ∧
      (p.comments.get e).isTypedefOf name owner = true ∧ p.AddsProperty i decl.name p' := by
  have hinline : L ∈ t.inlines D := by
    obtain ⟨L', heq, hinline⟩ := Tree.mem_inlineOrigins (hp.of_origins hlinked).2
    cases heq
    exact hinline
  obtain ⟨name, owner, hname, howner, htypedef⟩ := (hp.entries e D L hlinked).isTypedefOf hobject
  obtain ⟨i, hfound, hle, hself, hfirst⟩ :=
    Collection.find?_of_isTypedefOf (hp.aligned.lt_size hlinked) htypedef
  refine ⟨name, owner, i, hname, howner, hle, hself, hfirst, htypedef, ?_⟩
  rw [document, hdecl] at hrun
  obtain ⟨name', owner', hkey, hstep⟩ := documentVariable_property hr ht hnode hparent hobject hrun
  rw [Tree.typedefKey_of_inline hr ht hinline hobject hname howner] at hkey
  cases hkey
  rw [hfound] at hstep
  obtain ⟨type, links, names, -, -, rfl⟩ := hstep
  have hi : i < p.comments.size := lt_of_find? hfound
  refine ⟨⟨type, ?_⟩, ?_⟩
  · rw [Pass.get_link_of_lt (by rw [Pass.size_fill]; exact hi), Pass.get_fill_self hi, hdecl]
    rfl
  · intro j hj hne
    rw [Pass.get_link_of_lt (by rw [Pass.size_fill]; exact hj), Pass.get_fill_of_ne (Ne.symm hne)]

/-- Properties are documented in an entry of the name of their type. When a property of an inline object
type is documented, the entry of the type is there, and the property is written into the first entry that
has the name and owner of the type, and into no other one. This is the entry of the type unless an entry
before it has the same name and owner. -/
theorem Source.ModuleForm.properties_of_collect (form : Source.ModuleForm) (path : String)
    (table : SymbolTable) (cs : Collection) (hcollect : (form.toTree path).collect table = .ok cs) :
    ∃ pass, (form.toTree path).runPass table = .ok pass ∧ pass.comments = cs ∧
      ∀ (done rest : List Nat) (node e D L : Nat) (role : VariableRole) (decl : Variable),
        (form.toTree path).preorder = done ++ node :: rest →
        (form.toTree path).decl node = .variableDecl role decl →
        (form.toTree path).parent? node = some L → ((form.toTree path).decl L).isObjectType = true →
        pass.origins[e]? = some (.inline D L) →
        ∃ before after name owner i,
          (Synthesis.documentAll (form.toTree path) table done).run {} = .ok ((), before) ∧
          (Synthesis.document (form.toTree path) table node).run before = .ok ((), after) ∧
          before.origins[e]? = some (.inline D L) ∧
          (form.toTree path).anonymousName D = .ok name ∧ (form.toTree path).ownerName D = .ok owner ∧
          (before.comments.get e).isTypedefOf name owner = true ∧
          (before.comments.get i).isTypedefOf name owner = true ∧
          (∀ j : Nat, j < i → (before.comments.get j).isTypedefOf name owner = false) ∧
          before.AddsProperty i decl.name after ∧ i ≤ e ∧
          ((∀ j : Nat, j < e → (before.comments.get j).isTypedefOf name owner = false) → i = e) := by
  have hr : (form.toTree path).Rooted := (placed_toTree path form).toRooted
  have ht : (form.toTree path).Inlined := inlined_toTree path form
  obtain ⟨pass, hrun, rfl⟩ := exists_runPass_of_collect hcollect
  obtain ⟨hhosted', hlinked'⟩ := linked_runPass hr ht hrun
  refine ⟨pass, hrun, rfl, ?_⟩
  intro done rest node e D L role decl hsplit hdecl hparent hobject hentry
  have hall := Synthesis.run_documentAll_of_runPass hrun
  rw [hsplit, Synthesis.run_documentAll_append] at hall
  obtain ⟨before, hbefore, hrest⟩ := hall
  obtain ⟨after, hafter, -⟩ := Synthesis.run_documentAll_cons.1 hrest
  obtain ⟨hhosted, hlinked⟩ := linked_documentAll hr ht hsplit hbefore
  -- The type with the inline type is a part of a declaration around the property.
  obtain ⟨hnamed, hinline⟩ := hlinked'.of_origins hentry
  obtain ⟨-, d, -, hhost⟩ := hhosted'.hosts D hnamed
  have hd : d ∈ done := by
    obtain ⟨L', heq, hchild⟩ := Tree.mem_inlineOrigins hinline
    cases heq
    obtain ⟨hL, hparentL⟩ := Tree.mem_children.1 (ht.mem_children hchild)
    have hnode : node < (form.toTree path).size := by
      rw [← hr.mem_preorder, hsplit]
      exact List.mem_append_right _ List.mem_cons_self
    refine hr.mem_of_mem_ancestors hsplit ?_
    rw [hr.ancestors_eq hnode hparent, Tree.lineage, hr.ancestors_eq hL hparentL]
    exact List.mem_cons_of_mem L (Tree.mem_lineage_of_host? hhost)
  have hcontinues : before.Continues (form.toTree path) (node :: rest) pass :=
    Pass.continues_of_documentAll hr ht (by rw [List.append_nil]; exact hsplit) hrest
  have hlast := hcontinues.origins_of_linked hr ht hsplit hlinked hhosted hlinked' hhosted' hd hhost hentry
  have hnode : node < (form.toTree path).size := by
    rw [← hr.mem_preorder, hsplit]
    exact List.mem_append_right _ List.mem_cons_self
  obtain ⟨name, owner, i, hname, howner, hle, hself, hfirst, htypedef, hadds⟩ :=
    Synthesis.document_property hr ht hnode hdecl hparent hobject hlinked hlast hafter
  refine ⟨before, after, name, owner, i, hbefore, hafter, hlast, hname, howner, htypedef, hself, hfirst,
    hadds, hle, fun hnone => ?_⟩
  by_contra hne
  have hother := hnone i (by omega)
  rw [hself] at hother
  cases hother

/-- A module in which a variable in a namespace and another one have the same name, each with an object for
its type. -/
def Source.twinModule : Source.ModuleForm where
  items :=
    [.namespaceDecl {} "N" false
      [.variable {} "a" none (some (.object {} [.property {} "x" false (some (.word "string"))]))],
    .variable {} "a" none (some (.object {} [.property {} "y" false (some (.word "number"))]))]

/-- The property of the second object is written into an entry not behind that of its type. -/
theorem Source.ModuleForm.properties_of_collect_twinModule :
    ∃ pass before after i, (twinModule.toTree "twin.ts").runPass {} = .ok pass ∧
      pass.origins[4]? = some (.inline 5 6) ∧
      (Synthesis.document (twinModule.toTree "twin.ts") {} 7).run before = .ok ((), after) ∧
      (before.comments.get 4).isTypedefOf "AType" none = true ∧
      (before.comments.get i).isTypedefOf "AType" none = true ∧ i ≤ 4 ∧ before.AddsProperty i "y" after := by
  obtain ⟨cs, hcollect⟩ := Error.exists_of_isOk
    (by decide +kernel : ((twinModule.toTree "twin.ts").collect {}).isOk = true)
  obtain ⟨pass, hrun, -, hproperties⟩ := properties_of_collect twinModule "twin.ts" {} cs hcollect
  have hentry : ((twinModule.toTree "twin.ts").runPass {}).toOption.bind (fun p => p.origins[4]?) =
      some (.inline 5 6) := by decide +kernel
  rw [hrun] at hentry
  obtain ⟨before, after, name, owner, i, -, hafter, -, hname, howner, hself, hfound, -, hadds, hle, -⟩ :=
    hproperties [0, 1, 2, 3, 4, 5, 6] [] 7 4 5 6 .member { name := "y", type := some (.intrinsic "number") }
      (by decide +kernel) rfl (by decide +kernel) (by decide +kernel) hentry
  have hname' : ((twinModule.toTree "twin.ts").anonymousName 5).toOption = some "AType" := by decide +kernel
  have howner' : ((twinModule.toTree "twin.ts").ownerName 5).toOption = some none := by decide +kernel
  rw [hname] at hname'
  rw [howner] at howner'
  cases hname'
  cases howner'
  exact ⟨pass, before, after, i, hrun, hentry, hafter, hself, hfound, hle, hadds⟩

/-- It is not the entry of its type: the property `y` of the second object stands in the entry of the first
object, and the entry of the second object has none. -/
theorem Source.ModuleForm.property_elsewhere_twinModule :
    ((twinModule.toTree "twin.ts").decl 7).name? = some "y" ∧
      (twinModule.toTree "twin.ts").parent? 7 = some 6 ∧
      ((twinModule.toTree "twin.ts").runPass {}).toOption.map (fun p =>
        (p.origins[2]?, p.origins[4]?, (p.comments.get 2).hasTag "property" (some "y"),
          (p.comments.get 4).hasTag "property" (some "y"))) =
        some (some (.inline 2 3), some (.inline 5 6), true, false) := by
  decide +kernel

end DocBlock
