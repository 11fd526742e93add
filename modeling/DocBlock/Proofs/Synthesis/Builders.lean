import DocBlock.Proofs.Source.Placed
import DocBlock.Proofs.Synthesis.Frame
import DocBlock.Synthesis.Builders

/-! # What each builder writes

For each builder of facts: the kinds of tags it names, the facts that are there afterwards, and that it
changes no other entry. Naming a type makes entries for the inline types in it and changes none
(`typeFor_quiet`). A signature writes the description and the descriptions of parameters, but only
those that the hand-written comment has already (`addFromSignature_builds`). -/

namespace DocBlock.Synthesis

variable {t : Tree} {table : SymbolTable} {id : Nat} {node : NodeId} {h : Comment} {kind : String}

/-! ## Builders in steps -/

/-- A signature is written in three steps: its prose, its parameters and its result. -/
theorem addSignature_eq (t : Tree) (typeFor : NodeId → Synthesis String) (id : Nat) (s : Signature) :
    addSignature t typeFor id s = (do
      (match s.documentation with
        | some documentation => edit id fun c => { c with description := some documentation }
        | none => pure () : Synthesis Unit)
      s.parameters.forM (addParam t typeFor id)
      if s.returnsValue then
        let type ← typeFor s.declaration
        edit id fun c => c.put "returns" none fun tag => { tag with type := some type }) := by
  unfold addSignature
  cases s.documentation with
  | none => rfl
  | some documentation => rfl

/-- The access level and `static` come first, where the declaration can have them, and `instance` last. -/
theorem addModifier_eq (t : Tree) (id : Nat) (node : NodeId) :
    addModifier t id node = (do
      (if ((t.parent? node).map t.decl).any Decl.isInterface then pure ()
        else do
          (match (t.decl node).modifiers.access with
            | some access => ensure id access.keyword
            | none => pure () : Synthesis Unit)
          if (t.decl node).modifiers.isStatic then ensure id "static" : Synthesis Unit)
      if ((t.parent? node).map t.decl).any Decl.isClassLike then ensure id "instance") := by
  unfold addModifier
  dsimp only
  cases ((t.parent? node).map t.decl).any Decl.isInterface with
  | true => rfl
  | false =>
    cases (t.decl node).modifiers.access with
    | none => cases (t.decl node).modifiers.isStatic <;> rfl
    | some access => cases (t.decl node).modifiers.isStatic <;> rfl

/-! ## Single tags -/

theorem setName_builds (hkind : kind ≠ "param") (name : String) :
    Builds id h [kind] [(kind, some name)] (setName id kind name) := by
  refine Edits.edit ?_
  intro c
  refine ⟨.put hkind (fun _ => rfl) (fun _ => rfl) (.inl List.mem_cons_self), ?_⟩
  intro fact hfact
  rw [List.mem_singleton.1 hfact]
  exact Comment.hasTag_put_named c kind (fun _ => rfl) fun _ => rfl

theorem ensure_builds (hkind : kind ≠ "param") (name : Option String) :
    Builds id h [] [(kind, name)] (ensure id kind name) := by
  refine Edits.edit ?_
  intro c
  refine ⟨.put hkind (fun _ => rfl) (fun _ => rfl) (.inr fun _ => rfl), ?_⟩
  intro fact hfact
  rw [List.mem_singleton.1 hfact]
  exact Comment.hasTag_ensured c kind name

/-- The tag that names the owner of a declaration. -/
def ownerFacts (t : Tree) (node : NodeId) : List (String × Option String) :=
  match t.ownerName node with
  | .ok (some owner) => [("memberof", some owner)]
  | _ => []

theorem kind_of_mem_ownerFacts {fact : String × Option String} (hfact : fact ∈ ownerFacts t node) :
    fact.1 = "memberof" := by
  rw [ownerFacts] at hfact
  split at hfact
  · rw [List.mem_singleton.1 hfact]
  · exact absurd hfact List.not_mem_nil

theorem ownerFacts_of_parent_none (hparent : t.parent? node = none) : ownerFacts t node = [] := by
  have hnone : t.ownerName node = .ok none := by
    rw [Tree.ownerName, Tree.ancestors, hparent]
    rfl
  rw [ownerFacts, hnone]

theorem addParent_builds : Builds id h ["memberof"] (ownerFacts t node) (addParent t id node) := by
  unfold addParent
  split
  · refine Builds.lift_bind fun owner howner => ?_
    rw [ownerFacts, howner]
    cases owner with
    | none => exact .pure ()
    | some owner => exact setName_builds (by decide) owner
  · rename_i hparent
    rw [ownerFacts_of_parent_none (by simpa using hparent)]
    exact .pure ()

/-! ## Parameters -/

/-- The comment that a declaration starts out with. -/
def startingComment (t : Tree) (node : NodeId) : Comment :=
  (t.handWritten? node).getD Comment.empty

/-- However a parameter is written, it is still named. -/
theorem bareParamName_renderParam {p : Parameter} (hname : PlainName p.name) :
    bareParamName (renderParam p) = p.name := by
  obtain ⟨dots, hdots, hwritten⟩ : ∃ dots, (dots = [] ∨ dots = "...".toList) ∧
      (if p.rest then "..." ++ p.name else p.name).toList = dots ++ p.name.toList := by
    cases p.rest with
    | false => exact ⟨[], .inl rfl, rfl⟩
    | true => exact ⟨"...".toList, .inr rfl, by simp⟩
  unfold renderParam
  cases p.initializer with
  | some init =>
    refine bareParamName_decorated ['['] dots ('=' :: (init.text.toList ++ [']'])) hname (by simp)
      hdots (.inr rfl) ?_
    simp [hwritten]
  | none =>
    cases p.optional with
    | true =>
      refine bareParamName_decorated ['['] dots [']'] hname (by simp) hdots endsName_bracket ?_
      simp [hwritten]
    | false =>
      refine bareParamName_decorated [] dots [] hname (by simp) hdots endsName_nil ?_
      simp [hwritten]

theorem eq_some_of_presentDescription? {description : Option String} {d : String}
    (h : presentDescription? description = some d) : description = some d :=
  (Option.filter_eq_some_iff.1 h).1

/-- The documentation of a parameter is the description that its declaration's hand-written comment
has for it. -/
theorem documentation?_parameter {p : Parameter} {owner : NodeId} (hdecl : t.decl node = .parameter p)
    (hparent : t.parent? node = some owner) {d : String} (hd : t.documentation? node = some d) :
    ∃ tag ∈ (startingComment t owner).tags, tag.kind = "param" ∧
      tag.name.map bareParamName = some p.name ∧ tag.description = some d := by
  rw [Tree.documentation?, hdecl] at hd
  simp only [hparent, Option.bind_eq_bind, Option.bind_some, Option.bind_eq_some_iff] at hd
  obtain ⟨comment, hcomment, tag, hfind, hdescription⟩ := hd
  have hfound := List.find?_some hfind
  rw [Bool.and_eq_true, beq_iff_eq] at hfound
  refine ⟨tag, ?_, hfound.1, ?_, eq_some_of_presentDescription? hdescription⟩
  · rw [startingComment, hcomment]
    exact List.mem_of_find?_eq_some hfind
  · cases hname : tag.name with
    | none =>
      rw [hname] at hfound
      exact absurd hfound.2 (by simp)
    | some name =>
      rw [hname] at hfound
      simpa using hfound.2

/-- The documentation of any other declaration is its own description. -/
theorem documentation?_callable {role : CallableRole} {decl : Callable}
    (hdecl : t.decl node = .callable role decl) {d : String} (hd : t.documentation? node = some d) :
    (startingComment t node).description = some d := by
  rw [Tree.documentation?, hdecl] at hd
  simp only [Option.bind_eq_bind, Option.bind_eq_some_iff] at hd
  obtain ⟨comment, hcomment, hdescription⟩ := hd
  rw [startingComment, hcomment]
  exact eq_some_of_presentDescription? hdescription

/-! ## Types -/

section

variable {typeFor : NodeId → Synthesis String} (htype : ∀ node, Quiet (typeFor node))
include htype

/-- A parameter is written into one entry only. -/
theorem addParam_edits {S : Comment → Comment → Prop} (hrefl : ∀ c, S c c)
    (hS : ∀ p type c, t.decl node = .parameter p →
      S c (c.putParam p.name p.rest (isOptionalParam p) fun tag =>
        { tag with
          name := some (renderParam p)
          type := some type
          description := (t.documentation? node).or tag.description })) :
    Edits id S (addParam t typeFor id node) := by
  unfold addParam
  split
  · rename_i p hdecl
    refine Edits.quiet_bind (htype node) fun type => ?_
    exact Edits.edit fun c => hS p type c hdecl
  · exact (Quiet.pure ()).edits hrefl

/-- A signature is written into one entry only. -/
theorem addSignature_edits {S : Comment → Comment → Prop} (hrefl : ∀ c, S c c)
    (htrans : ∀ c c' c'', S c c' → S c' c'' → S c c'') {s : Signature}
    (hdocumentation : ∀ d ∈ s.documentation, ∀ c : Comment, S c { c with description := some d })
    (hparams : ∀ node ∈ s.parameters, ∀ p type c, t.decl node = .parameter p →
      S c (c.putParam p.name p.rest (isOptionalParam p) fun tag =>
        { tag with
          name := some (renderParam p)
          type := some type
          description := (t.documentation? node).or tag.description }))
    (hreturns : ∀ type c, S c (c.put "returns" none fun tag => { tag with type := some type })) :
    Edits id S (addSignature t typeFor id s) := by
  rw [addSignature_eq]
  refine Edits.bind ?_ (fun _ => Edits.bind (Edits.forM hrefl htrans ?_) (fun _ => ?_) htrans) htrans
  · split
    · rename_i d hd
      exact Edits.edit fun c => hdocumentation d hd c
    · exact (Quiet.pure ()).edits hrefl
  · intro node hnode
    exact addParam_edits htype hrefl (hparams node hnode)
  · split
    · refine Edits.quiet_bind (htype _) fun type => ?_
      exact Edits.edit fun c => hreturns type c
    · exact (Quiet.pure ()).edits hrefl

theorem addSignature_touches (s : Signature) : Touches id (addSignature t typeFor id s) :=
  addSignature_edits htype (fun _ => trivial) (fun _ _ _ _ _ => trivial) (fun _ _ _ => trivial)
    (fun _ _ _ _ _ _ => trivial) fun _ _ => trivial

/-- The entry of an inline type is a new one. -/
theorem addInline_quiet (node inline : NodeId) : Quiet (addInline t typeFor node inline) := by
  unfold addInline
  refine Quiet.lift_bind fun name _ => ?_
  refine Quiet.newEntry_bind rfl fun id => ?_
  refine Touches.bind (addParent_builds (h := Comment.empty)).touches fun _ => ?_
  split
  · refine Touches.bind (ensure_builds (h := Comment.empty) (by decide) _).touches fun _ => ?_
    split
    · exact addSignature_touches htype _
    · exact (Quiet.pure ()).touches
  · exact Edits.edit fun _ => trivial

end

theorem recordNamed_quiet (node : NodeId) : Quiet (recordNamed node) := by
  intro p a p' hrun
  cases hrun
  exact .of_eq (fun _ _ => rfl) rfl rfl rfl

/-- Naming a type changes no entry. -/
theorem typeWithin_quiet (depth : Nat) (node : NodeId) : Quiet (typeWithin t table depth node) := by
  induction depth generalizing node with
  | zero =>
    unfold typeWithin
    exact .throw _
  | succ depth ih =>
    unfold typeWithin
    refine Quiet.lift_bind fun result _ => ?_
    refine Quiet.bind (recordNamed_quiet node) fun _ => ?_
    refine Quiet.bind (Quiet.forM fun inline _ => addInline_quiet ih node inline) fun _ => ?_
    exact .pure _

theorem typeFor_quiet (t : Tree) (table : SymbolTable) (node : NodeId) : Quiet (typeFor t table node) :=
  typeWithin_quiet t.size node

theorem addFromSignature_touches (s : Signature) :
    Touches id (addFromSignature t table id s) :=
  addSignature_touches (typeFor_quiet t table) s

theorem signature?_spec {s : Signature} (hs : t.signature? node = some s) :
    (∃ role decl, t.decl node = .callable role decl) ∧ s.documentation = t.documentation? node ∧
      ∀ j ∈ s.parameters, t.parent? j = some node := by
  rw [Tree.signature?] at hs
  split at hs
  · rename_i role decl hdecl
    obtain rfl := Option.some.inj hs
    refine ⟨⟨role, decl, hdecl⟩, rfl, ?_⟩
    intro j hj
    exact (Tree.mem_children.1 (List.mem_filter.1 hj).1).2
  · exact absurd hs (by simp)

/-- The signature of a declaration adds nothing to the prose of its hand-written comment. -/
theorem addFromSignature_builds (ht : t.Placed) {s : Signature} (hs : t.signature? node = some s) :
    Builds id (startingComment t node) ["param"] [] (addFromSignature t table id s) := by
  obtain ⟨⟨role, decl, hdecl⟩, hdocumentation, hparameters⟩ := signature?_spec hs
  have hwrites : Edits id (Comment.Writes (startingComment t node) ["param"])
      (addFromSignature t table id s) := by
    refine addSignature_edits (typeFor_quiet t table) (.refl _ _) ?_ ?_ ?_ ?_
    · intro c c' c'' hfirst hsecond
      exact (hfirst.trans hsecond).mono (by simp)
    · intro d hd c
      rw [hdocumentation] at hd
      exact .description (documentation?_callable hdecl hd)
    · intro j hj p type c hp
      refine .putParam (ht.plain j p hp) (fun _ => rfl) ?_ (fun _ => rfl) ?_
      · intro tag
        rw [Option.map_some, bareParamName_renderParam (ht.plain j p hp)]
      · intro d hd
        exact documentation?_parameter hp (hparameters j hj) hd
    · intro type c
      exact .put (by decide) (fun _ => rfl) (fun _ => rfl) (.inr fun _ => rfl)
  exact Edits.mono hwrites fun _ _ h => ⟨h, fun _ hmem => absurd hmem List.not_mem_nil⟩

/-! ## Names and values -/

theorem addName_builds (hkind : kind ≠ "param") :
    Builds id h [kind] [(kind, some ((t.decl node).name?.getD ""))] (addName t id kind node) :=
  setName_builds hkind _

/-- The value goes behind the name only where the tag is no `member`. -/
theorem addTypedName_builds (hkind : kind = "member" ∨ (t.decl node).initializer? = none)
    (hparam : kind ≠ "param") (hdefault : kind ≠ "default") :
    Builds id h [kind, "default"] [(kind, some ((t.decl node).name?.getD ""))]
      (addTypedName t table id kind node) := by
  -- The value is written behind the tag, and does not change it.
  have hthen : ∀ (type : Option String) (value : Synthesis Unit), Builds id h ["default"] [] value →
      Builds id h [kind, "default"] [(kind, some ((t.decl node).name?.getD ""))] (do
        edit id fun c => c.put kind none fun tag =>
          { tag with name := some ((t.decl node).name?.getD ""), type := type.or tag.type }
        value) := by
    intro type value hvalue
    have htag : Builds id h [kind] [(kind, some ((t.decl node).name?.getD ""))]
        (edit id fun c => c.put kind none fun tag =>
          { tag with name := some ((t.decl node).name?.getD ""), type := type.or tag.type }) := by
      refine Edits.edit fun c => ?_
      refine ⟨.put hparam (fun _ => rfl) (fun _ => rfl) (.inl List.mem_cons_self), ?_⟩
      intro fact hfact
      rw [List.mem_singleton.1 hfact]
      exact Comment.hasTag_put_named c kind (fun _ => rfl) fun _ => rfl
    refine (htag.bind (fun _ => hvalue) ?_).mono (by simp) (by simp)
    intro fact hfact
    rw [List.mem_singleton.1 hfact]
    simpa using hdefault
  have htype := typeFor_quiet t table node
  unfold addTypedName
  dsimp only
  cases hliteral : (t.decl node).initializer?.filter fun init => init.literal.isSome with
  | none =>
    split
    · exact Edits.quiet_bind htype.map fun type => hthen type _ (.pure ())
    · exact Edits.quiet_bind (.pure none) fun type => hthen type _ (.pure ())
  | some init =>
    obtain rfl : kind = "member" := by
      rcases hkind with hmember | hnone
      · exact hmember
      · rw [hnone] at hliteral
        cases hliteral
    have hvalue : Builds id h ["default"] [] (setName id "default" init.text) :=
      (setName_builds (by decide) _).mono (List.Subset.refl _) (List.nil_subset _)
    simp only [beq_self_eq_true, if_true]
    split
    · exact Edits.quiet_bind htype.map fun type => hthen type _ hvalue
    · exact Edits.quiet_bind (.pure none) fun type => hthen type _ hvalue

theorem addDefault_builds : Builds id h ["default"] [] (addDefault t id node) := by
  unfold addDefault
  split
  · refine Builds.edit fun c => ?_
    split
    · exact .refl h _ c
    · exact .put (by decide) (fun _ => rfl) (fun _ => rfl) (.inl List.mem_cons_self)
  · exact .pure ()

theorem addGeneric_builds : Builds id h ["generic"] [] (addGeneric t id node) := by
  unfold addGeneric
  dsimp only
  split
  · exact (setName_builds (by decide) _).mono (List.Subset.refl _) (List.nil_subset _)
  · exact .pure ()

/-! ## Tags without names -/

theorem ensure_writes (hkind : kind ≠ "param") (name : Option String) :
    Builds id h [] [] (ensure id kind name) :=
  (ensure_builds hkind name).mono (List.Subset.refl _) (List.nil_subset _)

theorem keyword_ne_param (access : Access) : access.keyword ≠ "param" := by
  cases access <;> decide

theorem addModifier_builds : Builds id h [] [] (addModifier t id node) := by
  have htag : ∀ {b : Bool} {kind : String}, kind ≠ "param" →
      Builds id h [] [] (if b then ensure id kind else pure ()) := by
    intro b kind hkind
    cases b with
    | false => exact .pure ()
    | true => exact ensure_writes hkind none
  rw [addModifier_eq]
  refine Builds.seq ?_ fun _ => htag (by decide)
  split
  · exact .pure ()
  · refine Builds.seq ?_ fun _ => htag (by decide)
    split
    · rename_i access _
      exact ensure_writes (keyword_ne_param access) none
    · exact .pure ()

theorem heritageTag_ne_param (kind : HeritageKind) : heritageTag kind ≠ "param" := by
  cases kind <;> decide

theorem addHeritage_builds : Builds id h [] [] (addHeritage t table id node) := by
  unfold addHeritage
  refine Builds.forM fun clause _ => Builds.forM fun type _ => ?_
  refine Builds.lift_bind fun result _ => ?_
  exact ensure_writes (heritageTag_ne_param clause.kind) _

theorem addEnumMembers_builds (members : List EnumMember) :
    Builds id h ["property"] [] (addEnumMembers members id) := by
  unfold addEnumMembers
  refine Builds.forM fun member _ => Builds.edit fun c => ?_
  cases member.initializer.filter fun init => init.literal.isSome with
  | none => exact .put (by decide) (fun _ => rfl) (fun _ => rfl) (.inr fun _ => rfl)
  | some init => exact .put (by decide) (fun _ => rfl) (fun _ => rfl) (.inl List.mem_cons_self)

/-! ## Repetitions -/

theorem recordSighting_quiet (key : DeclKey) (id : Nat) (merged : Bool) :
    Quiet (recordSighting key id merged) := by
  intro p a p' hrun
  cases hrun
  exact .of_eq (fun _ _ => rfl) rfl rfl rfl

/-- Counting a sighting is a matter of the books. -/
theorem count_leads (key : DeclKey) (p : Pass) :
    p.Leads (fun _ c c' => c' = c) { p with comments := (p.comments.count key).1 } := by
  refine .of_eq (fun _ _ => rfl) rfl ?_ ?_
  · show (p.comments.count key).1.entries = p.comments.entries
    rw [Collection.count]
    split <;> rfl
  · show (p.comments.count key).1.canonical = p.comments.canonical
    rw [Collection.count]
    split <;> rfl

theorem addVariation_builds : Builds id h ["variation"] [] (addVariation t id node) := by
  unfold addVariation
  refine Builds.lift_bind fun key _ => ?_
  refine Edits.quiet_bind (recordSighting_quiet _ _ _) fun _ => ?_
  refine Edits.set_bind (count_leads key) fun pass => ?_
  generalize Prod.snd _ = number
  cases number with
  | none => exact Builds.pure ()
  | some n => exact (setName_builds (by decide) _).mono (List.Subset.refl _) (List.nil_subset _)

end DocBlock.Synthesis
