import DocBlock.Proofs.Source.Inlined
import DocBlock.Proofs.Synthesis.Filling
import DocBlock.Proofs.TypeName.InlineNodes

/-! # Which types are named

Naming the type of a declaration makes an entry for each inline type in it, and an inline function type
leads on to its parameters and its result (`typeFor_names`). Each step of that recursion goes down in the
tree, so no type is named twice on the way. The other builders write tags of their kinds into one entry
and leave everything else as it is. -/

namespace DocBlock

namespace Tree

variable {t : Tree} {i node : Nat}

theorem Inlined.mem_children (ht : t.Inlined) (hi : i ∈ t.inlines node) : i ∈ t.children node := by
  rw [inlines] at hi
  cases htype : (t.decl node).annotation? with
  | none =>
    rw [htype] at hi
    exact absurd hi List.not_mem_nil
  | some type =>
    rw [htype] at hi
    obtain ⟨-, hlt, hparent⟩ := (ht node type htype).child i hi
    exact Tree.mem_children.2 ⟨hlt, hparent⟩

theorem Inlined.isParameter_eq_false (ht : t.Inlined) (hi : i ∈ t.inlines node) :
    (t.decl i).isParameter = false := by
  rw [inlines] at hi
  cases htype : (t.decl node).annotation? with
  | none =>
    rw [htype] at hi
    exact absurd hi List.not_mem_nil
  | some type =>
    rw [htype] at hi
    have hinline := (ht node type htype).inline i hi
    cases hdecl : t.decl i with
    | parameter p =>
      rw [hdecl] at hinline
      rcases hinline with h | h <;> cases h
    | _ => rfl

theorem Inlined.nodup_inlines (ht : t.Inlined) (node : Nat) : (t.inlines node).Nodup := by
  rw [inlines]
  cases htype : (t.decl node).annotation? with
  | none => exact List.nodup_nil
  | some type => exact (ht node type htype).nodup

theorem isPart_of_isFunctionType {decl : Decl} (h : decl.isFunctionType = true) :
    decl.isPart = true := by
  cases decl with
  | callable role c =>
    cases role with
    | functionType => rfl
    | _ => cases h
  | _ => cases h

theorem isPart_of_isParameter {decl : Decl} (h : decl.isParameter = true) : decl.isPart = true := by
  cases decl with
  | parameter p => rfl
  | _ => cases h

theorem nodup_children (t : Tree) (i : Nat) : (t.children i).Nodup :=
  List.Nodup.filter _ List.nodup_range

/-- The types named for a declaration lie below it. -/
theorem Typed.under (hr : t.Rooted) (ht : t.Inlined) (hnode : node < t.size) {names : List NodeId}
    (h : t.Typed node names) : t.Under (t.host? node) [node] names := by
  obtain ⟨rest, rfl, hrest⟩ := h
  exact hrest.cons_self hr hnode fun k hk => ht.mem_children hk

end Tree

namespace Synthesis

open Comment (Spares Introduces)

variable {t : Tree} {table : SymbolTable} {id : Nat} {node inline : NodeId} {kind : String}
  {L : List NodeId → Prop}

/-! ## Single tags -/

theorem put_fills {f : Tag → Tag} (hf : ∀ tag, (f tag).kind = tag.kind) (kind : String)
    (name : Option String) :
    Fills t table id (Spares [kind]) Unnamed (edit id fun c => c.put kind name f) :=
  .edit (fun c => .put hf c kind name) unnamed_nil

theorem setName_fills (kind name : String) :
    Fills t table id (Spares [kind]) Unnamed (setName id kind name) := by
  unfold setName
  refine put_fills ?_ kind none
  exact fun _ => rfl

theorem ensure_fills (kind : String) (name : Option String) :
    Fills t table id (Spares [kind]) Unnamed (ensure id kind name) := by
  unfold ensure
  refine put_fills ?_ kind name
  exact fun _ => rfl

theorem pure_fills {ks : List String} :
    Fills t table id (Spares ks) Unnamed (pure () : Synthesis Unit) :=
  .pure (.refl ks) unnamed_nil ()

/-- What the owner of a declaration adds to an entry. -/
def NamesOwner (t : Tree) (node : NodeId) (c c' : Comment) : Prop :=
  ∃ owner, t.ownerName node = .ok owner ∧ Spares ["memberof"] c c' ∧
    (c.tagsOf "memberof" = [] →
      c'.tagsOf "memberof" = owner.toList.map fun o => { kind := "memberof", name := some o })

theorem addParent_namesOwner : Fills t table id (NamesOwner t node) Unnamed (addParent t id node) := by
  unfold addParent
  split
  · refine Fills.lift_bind fun owner howner => ?_
    cases owner with
    | none => exact .pure (fun c => ⟨none, howner, .refl _ c, fun hnil => hnil⟩) unnamed_nil ()
    | some owner =>
      refine Fills.edit (fun c => ⟨some owner, howner, ?_⟩) unnamed_nil
      have hput : Introduces ["memberof"] { kind := "memberof", name := some owner } c
          (c.put "memberof" none fun tag => { tag with name := some owner }) := by
        refine .put ?_ ?_ c
        · exact fun _ => rfl
        · rfl
      exact ⟨hput.spares, hput.tags⟩
  · rename_i hroot
    -- The file has no owner, and no parent to look for one.
    have hparent : t.parent? node = none := by simpa using hroot
    have howner : t.ownerName node = .ok none := by
      rw [Tree.ownerName, Tree.ancestors, hparent]
      rfl
    exact .pure (fun c => ⟨none, howner, .refl _ c, fun hnil => hnil⟩) unnamed_nil ()

theorem addParent_fills : Fills t table id (Spares ["memberof"]) Unnamed (addParent t id node) := by
  refine addParent_namesOwner.mono ?_ fun _ hnames => hnames
  rintro c c' ⟨owner, -, hspares, -⟩
  exact hspares

/-! ## Types -/

section

variable {typeFor : NodeId → Synthesis String}

/-- A parameter is written into one entry, and its type is named. -/
theorem addParam_fills (htype : Names t table [] (t.Typed node) (typeFor node))
    (hL : ∀ names, t.Typed node names → L names) (hnil : L []) :
    Fills t table id (Spares ["param"]) L (addParam t typeFor id node) := by
  unfold addParam
  split
  · refine Fills.names_bind (htype.mono hL) fun type => Fills.edit (fun c => ?_) unnamed_nil
    refine .putParam ?_ c _ _ _
    exact fun _ => rfl
  · exact .pure (.refl _) hnil ()

/-- The parameters of a declaration are different children of it. -/
theorem addParams_fills (hr : t.Rooted) (ht : t.Inlined)
    (htype : ∀ x : Nat, x < t.size → Names t table [] (t.Typed x) (typeFor x)) {parameters : List Nat}
    (hparameters : ∀ j : Nat, j ∈ parameters → j ∈ t.children node ∧ (t.decl j).isParameter = true)
    (hnodup : parameters.Nodup) :
    Fills t table id (Spares ["param"]) (t.Under (t.host? node) parameters)
      (parameters.forM (addParam t typeFor id)) := by
  induction parameters with
  | nil => exact .pure (.refl _) (t.under_nil _ _) ()
  | cons x parameters ih =>
    show Fills t table id (Spares ["param"]) _
      (addParam t typeFor id x >>= fun _ => parameters.forM (addParam t typeFor id))
    obtain ⟨hchild, hparameter⟩ := hparameters x List.mem_cons_self
    obtain ⟨hx, hparent⟩ := Tree.mem_children.1 hchild
    have hhost : t.host? x = t.host? node :=
      hr.host?_of_isPart hx hparent (Tree.isPart_of_isParameter hparameter)
    have hfirst : Fills t table id (Spares ["param"]) (t.Under (t.host? node) [x])
        (addParam t typeFor id x) := by
      refine addParam_fills (htype x hx) (fun names hnames => ?_) (t.under_nil _ _)
      rw [← hhost]
      exact hnames.under hr ht hx
    have hrest := ih (fun j hj => hparameters j (List.mem_cons_of_mem x hj)) (List.nodup_cons.1 hnodup).2
    refine hfirst.bind (fun _ => hrest) (fun _ _ _ h h' => (h.trans h').mono (by simp)) ?_
    intro names names' hnames hnames'
    refine Tree.Under.append hr hnames hnames' (x := node) ?_ ?_ ?_
    · intro k hk
      rw [List.mem_singleton.1 hk]
      exact hchild
    · exact fun k hk => (hparameters k (List.mem_cons_of_mem x hk)).1
    · rw [List.singleton_disjoint]
      exact (List.nodup_cons.1 hnodup).1

theorem signature?_parts {s : Signature} (hs : t.signature? node = some s) :
    s.declaration = node ∧ s.parameters.Nodup ∧
      ∀ j : Nat, j ∈ s.parameters → j ∈ t.children node ∧ (t.decl j).isParameter = true := by
  rw [Tree.signature?] at hs
  split at hs
  · obtain rfl := Option.some.inj hs
    exact ⟨rfl, (t.nodup_children node).filter _, fun j hj => List.mem_filter.1 hj⟩
  · exact absurd hs (by simp)

/-- The types named for a signature are those of its parameters and of its result. -/
theorem addSignature_fills (hr : t.Rooted) (ht : t.Inlined)
    (htype : ∀ x : Nat, x < t.size → Names t table [] (t.Typed x) (typeFor x)) (hnode : node < t.size)
    {s : Signature} (hs : t.signature? node = some s) :
    Fills t table id (Spares ["param", "returns"]) (t.Under (t.host? node) [node])
      (addSignature t typeFor id s) := by
  obtain ⟨hdeclaration, hnodup, hparameters⟩ := signature?_parts hs
  have hchildren : ∀ k : Nat, k ∈ s.parameters → k ∈ t.children node :=
    fun k hk => (hparameters k hk).1
  have hparams : Fills t table id (Spares ["param"]) (t.Under (t.host? node) s.parameters)
      (s.parameters.forM (addParam t typeFor id)) :=
    addParams_fills hr ht htype hparameters hnodup
  have hresult : Fills t table id (Spares ["returns"]) (t.Typed node) (do
      let type ← typeFor s.declaration
      edit id fun c => c.put "returns" none fun tag => { tag with type := some type }) := by
    rw [hdeclaration]
    refine Fills.names_bind (htype node hnode) fun type => put_fills ?_ "returns" none
    exact fun _ => rfl
  -- Everything but the description.
  have hfacts : Fills t table id (Spares ["param", "returns"]) (t.Under (t.host? node) [node]) (do
      s.parameters.forM (addParam t typeFor id)
      if s.returnsValue then
        let type ← typeFor s.declaration
        edit id fun c => c.put "returns" none fun tag => { tag with type := some type }) := by
    split
    · refine hparams.bind (fun _ => hresult) (fun _ _ _ h h' => h.trans h') ?_
      rintro names _ hnames ⟨rest, rfl, hrest⟩
      have hboth := Tree.Under.append hr hnames hrest hchildren (fun k hk => ht.mem_children hk) (by
        intro k hk hk'
        have hparameter := (hparameters k hk).2
        rw [ht.isParameter_eq_false hk'] at hparameter
        cases hparameter)
      refine (hboth.cons_self hr hnode ?_).perm List.perm_middle.symm
      intro k hk
      rcases List.mem_append.1 hk with hk | hk
      · exact hchildren k hk
      · exact ht.mem_children hk
    · have hnone : Fills t table id (Spares ["returns"]) Unnamed (pure () : Synthesis Unit) := pure_fills
      exact (hparams.bind_unnamed fun _ => hnone).named fun _ hnames => hnames.up hr hnode hchildren
  unfold addSignature
  cases hd : s.documentation with
  | none => exact hfacts
  | some d =>
    have hdescription : Fills t table id (Spares []) Unnamed
        (edit id fun c => { c with description := some d }) :=
      .edit (fun c => .description [] c (some d)) unnamed_nil
    exact hdescription.unnamed_bind fun _ => hfacts

theorem ensure_introduces {kind name : String} :
    Fills t table id (Introduces [kind] { kind, name := some name }) Unnamed (ensure id kind (some name)) :=
  .edit (fun c => .put (fun _ => rfl) rfl c) unnamed_nil

/-- The entry of an inline type names it and its owner. -/
theorem addInline_names (hr : t.Rooted) (ht : t.Inlined)
    (htype : ∀ x : Nat, x < t.size → Names t table [] (t.Typed x) (typeFor x))
    (hinline : inline ∈ t.inlines node) :
    Names t table [.inline node inline] (t.Under (t.host? node) [inline])
      (addInline t typeFor node inline) := by
  obtain ⟨hsize, hparent⟩ := Tree.mem_children.1 (ht.mem_children hinline)
  unfold addInline
  refine Names.lift_bind fun name hname => ?_
  refine Names.newEntry_bind fun id => ?_
  -- What follows the owner introduces the tag that says what the type is.
  refine addParent_namesOwner.bind (T := Introduces ["callback", "typedef", "param", "returns"]
    (t.inlineTag inline name)) (fun _ => ?_) ?_ fun _ _ h h' => h.append h'
  · rw [Tree.inlineTag]
    split
    · rename_i hfunction
      have hhost : t.host? inline = t.host? node :=
        hr.host?_of_isPart hsize hparent (Tree.isPart_of_isFunctionType hfunction)
      refine ensure_introduces.bind (T := Spares ["param", "returns"]) (fun _ => ?_) ?_
        fun _ _ h h' => h.append h'
      · cases hs : t.signature? inline with
        | none => exact .pure (.refl _) (t.under_nil _ _) ()
        | some s =>
          rw [← hhost]
          exact addSignature_fills hr ht htype hsize hs
      · exact fun c c' c'' hfirst hsecond => (hfirst.spared hsecond (by simp)).mono (by simp)
    · refine Fills.edit (fun c => ?_) (t.under_nil _ _)
      have hput : Introduces ["typedef"] { kind := "typedef", name := some name, type := some "Object" } c
          (c.put "typedef" (some name) fun tag => { tag with type := some "Object" }) := by
        refine .put ?_ ?_ c
        · exact fun _ => rfl
        · rfl
      exact hput.mono (by simp)
  · rintro c c' c'' ⟨owner, howner, hspares, hmember⟩ hintroduces rfl
    refine ⟨name, owner, hname, howner, hintroduces.tags ?_, ?_⟩
    · rw [hspares _ ?_]
      · rfl
      · rcases t.kind_inlineTag inline name with hkind | hkind <;> rw [hkind] <;> decide
    · rw [hintroduces.spares "memberof" (by decide), hmember rfl]

/-- The inline types in the type of a declaration are different children of it. -/
theorem addInlines_names (hr : t.Rooted) (ht : t.Inlined)
    (htype : ∀ x : Nat, x < t.size → Names t table [] (t.Typed x) (typeFor x)) {nodes : List Nat}
    (hnodes : ∀ k : Nat, k ∈ nodes → k ∈ t.inlines node) (hnodup : nodes.Nodup) :
    Names t table (nodes.map (.inline node)) (t.Under (t.host? node) nodes)
      (nodes.forM (addInline t typeFor node)) := by
  induction nodes with
  | nil => exact .pure (t.under_nil _ _) ()
  | cons k nodes ih =>
    show Names t table ([.inline node k] ++ nodes.map (.inline node)) _
      (addInline t typeFor node k >>= fun _ => nodes.forM (addInline t typeFor node))
    have hk := hnodes k List.mem_cons_self
    have hrest := ih (fun j hj => hnodes j (List.mem_cons_of_mem k hj)) (List.nodup_cons.1 hnodup).2
    refine (addInline_names hr ht htype hk).bind (fun _ => hrest) ?_
    intro names names' hnames hnames'
    refine Tree.Under.append hr hnames hnames' (x := node) ?_ ?_ ?_
    · intro j hj
      rw [List.mem_singleton.1 hj]
      exact ht.mem_children hk
    · exact fun j hj => ht.mem_children (hnodes j (List.mem_cons_of_mem k hj))
    · rw [List.singleton_disjoint]
      exact (List.nodup_cons.1 hnodup).1

end

/-- Naming the type of a declaration makes an entry for each inline type in it. -/
theorem typeWithin_names (hr : t.Rooted) (ht : t.Inlined) (depth x : Nat) :
    Names t table [] (t.Typed x) (typeWithin t table depth x) := by
  -- The depth bounds how far inline function types lead down.
  induction depth generalizing x with
  | zero =>
    intro p a p' hrun
    unfold typeWithin at hrun
    cases hrun
  | succ depth ih =>
    intro p a p' hrun
    unfold typeWithin at hrun
    obtain ⟨result, q, hlift, hrest⟩ := run_bind_eq_ok.1 hrun
    obtain ⟨hresult, rfl⟩ := run_lift_eq_ok.1 hlift
    obtain ⟨⟨⟩, q', hrecord, hrest⟩ := run_bind_eq_ok.1 hrest
    cases hrecord
    obtain ⟨⟨⟩, q', hinlines, hlast⟩ := run_bind_eq_ok.1 hrest
    obtain ⟨rfl, rfl⟩ : a = shownType (t.decl x) result.name ∧ p' = q' := by
      cases hlast
      exact ⟨rfl, rfl⟩
    have hsublist : result.anonymous.Sublist (t.inlines x) := Tree.resolveTypeName_sublist hresult
    obtain ⟨links, names, hlinks, hnames, rfl⟩ :=
      addInlines_names hr ht (fun y _ => ih y) (fun k hk => hsublist.subset hk)
        ((ht.nodup_inlines x).sublist hsublist) _ () p' hinlines
    have horigins : t.inlineOrigins table x = result.anonymous.map (.inline x) := by
      rw [Tree.inlineOrigins, hresult]
    refine ⟨links, x :: names, ⟨?_, ?_, hlinks.entries⟩, ⟨names, rfl, hnames.mono hsublist.subset⟩, ?_⟩
    · intro y hy
      rcases List.mem_cons.1 hy with rfl | hy
      · exact ⟨result, hresult⟩
      · exact hlinks.resolved y hy
    · rw [List.nil_append, List.flatMap_cons, horigins]
      exact hlinks.origins
    · simp [Pass.link]

theorem typeFor_names (hr : t.Rooted) (ht : t.Inlined) (x : Nat) :
    Names t table [] (t.Typed x) (typeFor t table x) :=
  typeWithin_names hr ht t.size x

/-! ## The other builders -/

theorem typeFor_under (hr : t.Rooted) (ht : t.Inlined) {x : Nat} (hx : x < t.size) :
    Names t table [] (t.Under (t.host? x) [x]) (typeFor t table x) :=
  (typeFor_names hr ht x).mono fun _ hnames => hnames.under hr ht hx

theorem addFromSignature_fills (hr : t.Rooted) (ht : t.Inlined) {x : Nat} (hx : x < t.size)
    {s : Signature} (hs : t.signature? x = some s) :
    Fills t table id (Spares ["param", "returns"]) (t.Under (t.host? x) [x])
      (addFromSignature t table id s) :=
  addSignature_fills hr ht (fun y _ => typeFor_names hr ht y) hx hs

theorem addName_fills (kind : String) :
    Fills t table id (Spares [kind]) Unnamed (addName t id kind node) :=
  setName_fills kind _

/-- The type of a declaration, where there is something to take it from, and what is done with it. -/
theorem optionalType_fills (hr : t.Rooted) (ht : t.Inlined) {x : Nat} (hx : x < t.size) (typed : Bool)
    {S : Comment → Comment → Prop} {f : Option String → Synthesis Unit}
    (hf : ∀ type, Fills t table id S Unnamed (f type)) :
    Fills t table id S (t.Under (t.host? x) [x])
      (do
        let type ← if typed then some <$> typeFor t table x else pure none
        f type) := by
  cases typed with
  | true =>
    refine Fills.names_bind ?_ hf
    show Names t table [] _ (some <$> typeFor t table x)
    exact (typeFor_under hr ht hx).map
  | false => exact Fills.names_bind (.pure (t.under_nil _ _) none) hf

theorem addTypedName_fills (hr : t.Rooted) (ht : t.Inlined) {x : Nat} (hx : x < t.size)
    (kind : String) :
    Fills t table id (Spares [kind, "default"]) (t.Under (t.host? x) [x])
      (addTypedName t table id kind x) := by
  unfold addTypedName
  dsimp only
  refine optionalType_fills hr ht hx _ fun type => ?_
  have htag : ∀ written : String, Fills t table id (Spares [kind]) Unnamed
      (edit id fun c => c.put kind none fun tag =>
        { tag with name := some written, type := type.or tag.type }) := by
    intro written
    refine put_fills ?_ kind none
    exact fun _ => rfl
  refine (htag _).unnamed_bind fun _ => ?_
  split
  · split
    · exact setName_fills "default" _
    · exact pure_fills
  · exact pure_fills

theorem addDefault_fills : Fills t table id (Spares ["default"]) Unnamed (addDefault t id node) := by
  unfold addDefault
  split
  · refine Fills.edit (fun c => ?_) unnamed_nil
    split
    · exact .refl _ c
    · refine .put ?_ c _ _
      exact fun _ => rfl
  · exact pure_fills

theorem addGeneric_fills : Fills t table id (Spares ["generic"]) Unnamed (addGeneric t id node) := by
  unfold addGeneric
  dsimp only
  split
  · exact setName_fills "generic" _
  · exact pure_fills

/-- The tags that say from where a member may be used and what it belongs to. -/
def modifierKinds : List String :=
  ["public", "private", "protected", "static", "instance"]

theorem keyword_mem_modifierKinds (access : Access) : access.keyword ∈ modifierKinds := by
  cases access <;> decide

theorem addModifier_fills :
    Fills t table id (Spares modifierKinds) Unnamed (addModifier t id node) := by
  have htag : ∀ {kind : String}, kind ∈ modifierKinds →
      Fills t table id (Spares modifierKinds) Unnamed (ensure id kind) := by
    intro kind hkind
    exact (ensure_fills kind none).kinds (List.cons_subset.2 ⟨hkind, List.nil_subset _⟩)
  -- One tag, when it is called for, behind what comes first.
  have hseq : ∀ {m : Synthesis Unit} {b : Bool} {kind : String},
      Fills t table id (Spares modifierKinds) Unnamed m → kind ∈ modifierKinds →
      Fills t table id (Spares modifierKinds) Unnamed (do m; if b then ensure id kind) := by
    intro m b kind hm hkind
    refine (hm.unnamed_bind fun _ => ?_).kinds
      (List.append_subset.2 ⟨List.Subset.refl _, List.Subset.refl _⟩)
    cases b with
    | false => exact pure_fills
    | true => exact htag hkind
  rw [addModifier_eq]
  refine hseq ?_ (by decide)
  split
  · exact pure_fills
  · refine hseq ?_ (by decide)
    split
    · rename_i access _
      exact htag (keyword_mem_modifierKinds access)
    · exact pure_fills

theorem addHeritage_fills :
    Fills t table id (Spares ["augments", "implements"]) Unnamed (addHeritage t table id node) := by
  unfold addHeritage
  refine Fills.forM fun clause _ => Fills.forM fun type _ => ?_
  refine Fills.lift_bind fun result _ => (ensure_fills _ _).kinds ?_
  cases clause.kind <;> simp [heritageTag]

theorem addEnumMembers_fills (members : List EnumMember) :
    Fills t table id (Spares ["property"]) Unnamed (addEnumMembers members id) := by
  unfold addEnumMembers
  refine Fills.forM fun member _ => put_fills ?_ "property" _
  intro tag
  split <;> rfl

/-- A property of an inline object type is written into one entry, and its type is named. -/
theorem addTypedefProperty_fills (hr : t.Rooted) (ht : t.Inlined) {x : Nat} (hx : x < t.size) :
    Fills t table id
      (fun c c' => ∃ type : Option String, c' =
        c.put "property" (some ((t.decl x).name?.getD "")) fun tag => { tag with type := type.or tag.type })
      (t.Under (t.host? x) [x]) (addTypedefProperty t table id x) := by
  unfold addTypedefProperty
  dsimp only
  exact optionalType_fills hr ht hx _ fun type => .edit (fun c => ⟨type, rfl⟩) unnamed_nil

end Synthesis

end DocBlock
