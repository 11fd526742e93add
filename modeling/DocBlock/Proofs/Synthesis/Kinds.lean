import DocBlock.Proofs.Synthesis.Builders
import DocBlock.Synthesis.Kinds

/-! # What documenting a declaration does

A declaration that has a tag of its own (`Tree.ownTag?`) starts an entry with its hand-written comment
and builds it up to that tag and its owner, in that entry alone (`document_own`). All other declarations
leave the entries of such declarations as they are but for types (`document_other`): some document
properties of an inline type, and interfaces and namespaces have entries of their own, which may be
merged with each other. -/

namespace DocBlock

/-- The tag that says what a declaration is, for the declarations that always have an entry of their
own. A constructor has no name. -/
def Tree.ownTag? (t : Tree) (node : NodeId) : Option (String × Option String) :=
  let name := some ((t.decl node).name?.getD "")
  match t.decl node with
  | .variableDecl _ _ =>
    if (t.parent? node).any fun p => (t.decl p).isObjectType then none else some ("member", name)
  | .callable .function _ => some ("function", name)
  | .callable .method _ => some ("function", name)
  | .callable .constructor _ => some ("ctor", none)
  | .classDecl _ => some ("class", name)
  | .typeAlias _ => some ("typedef", name)
  | .enum _ => some ("enum", name)
  | _ => none

/-- A change that takes nothing from a comment, whatever it was hand-written as, and renames no tag. -/
def Comment.Keeps (c c' : Comment) : Prop :=
  ∀ h, Comment.Writes h [] c c'

theorem Comment.Keeps.refl (c : Comment) : c.Keeps c :=
  fun h => .refl h [] c

namespace Synthesis

variable {t : Tree} {table : SymbolTable} {id : Nat} {node : NodeId} {h : Comment}

/-! ## Further entries -/

theorem addCallbacks_quiet (signatures : List Signature) :
    Quiet (addCallbacks t table id node signatures) := by
  unfold addCallbacks
  refine Quiet.forM fun s _ => Quiet.get_bind fun pass => ?_
  refine Quiet.newEntry_bind rfl fun sibling => ?_
  refine Touches.bind (addName_builds (h := Comment.empty) (by decide)).touches fun _ => ?_
  refine Touches.bind (addGeneric_builds (h := Comment.empty)).touches fun _ => ?_
  refine Touches.bind (addFromSignature_touches s) fun _ => ?_
  refine Touches.bind (addParent_builds (h := Comment.empty)).touches fun _ => ?_
  exact (addVariation_builds (h := Comment.empty)).touches

theorem addSignatureEntries_quiet {kind : String} (hkind : kind ≠ "param")
    (signatures : List Signature) : Quiet (addSignatureEntries t table kind signatures) := by
  unfold addSignatureEntries
  refine Quiet.forM fun s _ => ?_
  refine Quiet.newEntry_bind rfl fun linked => ?_
  refine Touches.bind (ensure_writes (h := Comment.empty) hkind none).touches fun _ => ?_
  refine Touches.bind (addGeneric_builds (h := Comment.empty)).touches fun _ => ?_
  refine Touches.bind (addFromSignature_touches s) fun _ => ?_
  refine Touches.bind (addParent_builds (h := Comment.empty)).touches fun _ => ?_
  exact (addVariation_builds (h := Comment.empty)).touches

theorem findTypedef_quiet (objectType : NodeId) : Quiet (findTypedef t objectType) := by
  unfold findTypedef
  refine Quiet.lift_bind fun name _ => ?_
  dsimp only
  split
  · refine Quiet.lift_bind fun owner _ => ?_
    exact Quiet.get_bind fun pass => .pure _
  · refine Quiet.bind (.pure none) fun owner => ?_
    exact Quiet.get_bind fun pass => .pure _

/-- A property of an inline type is added where the type is documented; only types are changed. -/
theorem addTypedefProperty_step :
    Step (fun _ => Comment.Keeps) (addTypedefProperty t table id node) := by
  have hproperty : ∀ (name : String) (type : Option String),
      Edits id Comment.Keeps
        (edit id fun c => c.put "property" (some name) fun tag =>
          { tag with type := type.or tag.type }) := by
    intro name type
    refine Edits.edit fun c h => ?_
    exact .put (by decide) (fun _ => rfl) (fun _ => rfl) (.inr fun _ => rfl)
  have hedits : Edits id Comment.Keeps (addTypedefProperty t table id node) := by
    unfold addTypedefProperty
    dsimp only
    split
    · exact Edits.quiet_bind (typeFor_quiet t table node).map fun type => hproperty _ type
    · exact Edits.quiet_bind (.pure none) fun type => hproperty _ type
  exact hedits.step .refl

/-! ## Declarations with a tag of their own -/

/-- The owner, and what follows it without writing owners. -/
theorem owner_builds {ks : List String} {rest : Synthesis Unit} (hrest : Builds id h ks [] rest)
    (hks : "memberof" ∉ ks) :
    Builds id h ("memberof" :: ks) (ownerFacts t node) (addParent t id node >>= fun _ => rest) := by
  refine (addParent_builds.bind (fun _ => hrest) ?_).mono (by simp) (by simp)
  intro fact hfact
  rw [kind_of_mem_ownerFacts hfact]
  exact hks

/-- A fact, and what follows it without writing tags of its kind. -/
theorem fact_builds {ks ls : List String} {fact : String × Option String}
    {facts : List (String × Option String)} {m rest : Synthesis Unit} (hm : Builds id h ks [fact] m)
    (hrest : Builds id h ls facts rest) (hls : fact.1 ∉ ls) :
    Builds id h (ks ++ ls) (fact :: facts) (m >>= fun _ => rest) := by
  refine hm.bind (fun _ => hrest) ?_
  intro fact' hfact'
  rw [List.mem_singleton.1 hfact']
  exact hls

/-- Something else, and what follows it. -/
theorem other_builds {ks ls : List String} {facts : List (String × Option String)}
    {m rest : Synthesis Unit} (hm : Builds id h ks [] m) (hrest : Builds id h ls facts rest) :
    Builds id h (ks ++ ls) facts (m >>= fun _ => rest) :=
  hm.bind (fun _ => hrest) fun _ hmem => absurd hmem List.not_mem_nil

/-- The signature of a declaration, and what follows it. -/
theorem signature_builds (ht : t.Placed) {ls : List String} {facts : List (String × Option String)}
    {rest : Synthesis Unit} (hrest : Builds id (startingComment t node) ls facts rest) :
    Builds id (startingComment t node) ("param" :: ls) facts
      (match t.signature? node with
        | some s => addFromSignature t table id s >>= fun _ => rest
        | none => rest) := by
  cases hs : t.signature? node with
  | none => exact hrest.mono (List.subset_cons_self _ _) (List.Subset.refl _)
  | some s => exact other_builds (addFromSignature_builds ht hs) hrest

/-- A step that starts the entry of a declaration with its hand-written comment and builds it up to
some facts. -/
def Owns (t : Tree) (node : NodeId) (facts : List (String × Option String)) (m : Synthesis Unit) :
    Prop :=
  ∃ body ks, m = addOwn t node >>= body ∧ ∀ id, Builds id (startingComment t node) ks facts (body id)

theorem documentVariable_owns (hparent : ∀ p ∈ t.parent? node, (t.decl p).isObjectType = false) :
    Owns t node (("member", some ((t.decl node).name?.getD "")) :: ownerFacts t node)
      (documentVariable t table node) := by
  have hnone : (t.parent? node).filter (fun p => (t.decl p).isObjectType) = none := by
    rw [Option.filter_eq_none_iff]
    intro p hp
    rw [hparent p hp]
    exact Bool.false_ne_true
  unfold documentVariable
  rw [hnone]
  exact ⟨_, _, rfl, fun id => fact_builds (addTypedName_builds (.inl rfl) (by decide) (by decide))
    (other_builds addDefault_builds (owner_builds addModifier_builds (by simp))) (by simp)⟩

theorem documentFunction_owns (ht : t.Placed) :
    Owns t node (("function", some ((t.decl node).name?.getD "")) :: ownerFacts t node)
      (documentFunction t table node) := by
  exact ⟨_, _, rfl, fun id => fact_builds (addName_builds (by decide))
    (other_builds addVariation_builds (other_builds addGeneric_builds
      (signature_builds ht (owner_builds addModifier_builds (by simp))))) (by simp)⟩

theorem documentConstructor_owns (ht : t.Placed) :
    Owns t node (("ctor", none) :: ownerFacts t node) (documentConstructor t table node) := by
  have hsignature : ∀ id, Builds id (startingComment t node) ["param"] []
      (match t.signature? node with
        | some s => addFromSignature t table id s
        | none => pure ()) := by
    intro id
    cases hs : t.signature? node with
    | none => exact .pure ()
    | some s => exact addFromSignature_builds ht hs
  exact ⟨_, _, rfl, fun id => fact_builds (ensure_builds (by decide) none)
    (other_builds addVariation_builds (owner_builds (hsignature id) (by simp))) (by simp)⟩

theorem documentClass_owns :
    Owns t node (("class", some ((t.decl node).name?.getD "")) :: ownerFacts t node)
      (documentClass t table node) := by
  exact ⟨_, _, rfl, fun id => fact_builds (addName_builds (by decide))
    (other_builds addVariation_builds (other_builds addGeneric_builds
      (other_builds addHeritage_builds addParent_builds))) (by simp)⟩

theorem documentAlias_owns (hvalue : (t.decl node).initializer? = none) :
    Owns t node (("typedef", some ((t.decl node).name?.getD "")) :: ownerFacts t node)
      (documentAlias t table node) := by
  exact ⟨_, _, rfl, fun id => fact_builds (addTypedName_builds (.inr hvalue) (by decide) (by decide))
    (other_builds addVariation_builds addParent_builds) (by simp)⟩

theorem documentEnum_owns (decl : Enum) :
    Owns t node (("enum", some ((t.decl node).name?.getD "")) :: ownerFacts t node)
      (documentEnum t node decl) := by
  exact ⟨_, _, rfl, fun id => fact_builds (addName_builds (by decide))
    (other_builds addModifier_builds (owner_builds (addEnumMembers_builds _) (by simp))) (by simp)⟩

/-- A declaration with a tag of its own starts an entry and builds it up to that tag. -/
theorem document_own (ht : t.Placed) {tag : String × Option String} (hown : t.ownTag? node = some tag) :
    Owns t node (tag :: ownerFacts t node) (document t table node) := by
  -- One case for each kind of declaration; a property of an object type has no tag of its own.
  unfold Tree.ownTag? at hown
  dsimp only at hown
  split at hown
  · rename_i role decl hdecl
    have hdocument : document t table node = documentVariable t table node := by rw [document, hdecl]
    split at hown
    · exact absurd hown (by simp)
    · rename_i hparent
      obtain rfl := Option.some.inj hown
      rw [hdocument]
      refine documentVariable_owns fun p hp => ?_
      rw [← Bool.not_eq_true]
      intro hobject
      exact hparent (by rw [hp]; exact hobject)
  · rename_i decl hdecl
    have hdocument : document t table node = documentFunction t table node := by rw [document, hdecl]
    obtain rfl := Option.some.inj hown
    rw [hdocument]
    exact documentFunction_owns ht
  · rename_i decl hdecl
    have hdocument : document t table node = documentFunction t table node := by rw [document, hdecl]
    obtain rfl := Option.some.inj hown
    rw [hdocument]
    exact documentFunction_owns ht
  · rename_i decl hdecl
    have hdocument : document t table node = documentConstructor t table node := by
      rw [document, hdecl]
    obtain rfl := Option.some.inj hown
    rw [hdocument]
    exact documentConstructor_owns ht
  · rename_i decl hdecl
    have hdocument : document t table node = documentClass t table node := by rw [document, hdecl]
    obtain rfl := Option.some.inj hown
    rw [hdocument]
    exact documentClass_owns
  · rename_i decl hdecl
    have hdocument : document t table node = documentAlias t table node := by rw [document, hdecl]
    obtain rfl := Option.some.inj hown
    rw [hdocument]
    exact documentAlias_owns (by rw [hdecl]; rfl)
  · rename_i decl hdecl
    have hdocument : document t table node = documentEnum t node decl := by rw [document, hdecl]
    obtain rfl := Option.some.inj hown
    rw [hdocument]
    exact documentEnum_owns decl
  · exact absurd hown (by simp)

/-! ## Other declarations -/

/-- A step that starts the entry of a declaration, changes no other one, and may merge it in the end
into that of an earlier declaration. -/
def Repeats (t : Tree) (node : NodeId) (m : Synthesis Unit) : Prop :=
  ∃ body, (∀ id, Touches id (body id)) ∧ (m = addOwn t node >>= body ∨
    m = addOwn t node >>= fun id => body id >>= fun _ => mergeRepeated t id node)

theorem documentInterface_repeats (decl : Interface) :
    Repeats t node (documentInterface t table node decl) := by
  unfold documentInterface
  dsimp only
  split
  · refine ⟨_, fun id => ?_, .inl rfl⟩
    refine Touches.bind (addCallbacks_quiet _).touches fun _ => ?_
    exact Edits.edit fun _ => trivial
  · let body : Nat → Synthesis Unit := fun id => do
      addName t id "interface" node
      addGeneric t id node
      addHeritage t table id node
      addParent t id node
      addSignatureEntries t table "ctorsignature" (t.constructSignatures node)
      addSignatureEntries t table "callsignature" (t.callSignatures node)
    have hbody : ∀ id, Touches id (body id) := by
      intro id
      refine Touches.bind (addName_builds (h := Comment.empty) (by decide)).touches fun _ => ?_
      refine Touches.bind (addGeneric_builds (h := Comment.empty)).touches fun _ => ?_
      refine Touches.bind (addHeritage_builds (h := Comment.empty)).touches fun _ => ?_
      refine Touches.bind (addParent_builds (h := Comment.empty)).touches fun _ => ?_
      refine Touches.bind (addSignatureEntries_quiet (by decide) _).touches fun _ => ?_
      exact (addSignatureEntries_quiet (by decide) _).touches
    exact ⟨body, hbody, .inr (by simp only [body, bind_assoc])⟩

theorem documentNamespace_repeats (decl : Namespace) :
    Repeats t node (documentNamespace t node decl) := by
  unfold documentNamespace
  split
  · refine ⟨fun id => setName id "module" decl.name, fun id => ?_, .inr rfl⟩
    exact (setName_builds (h := Comment.empty) (by decide) _).touches
  · let body : Nat → Synthesis Unit := fun id => do
      addName t id "namespace" node
      addParent t id node
    have hbody : ∀ id, Touches id (body id) := by
      intro id
      refine Touches.bind (addName_builds (h := Comment.empty) (by decide)).touches fun _ => ?_
      exact (addParent_builds (h := Comment.empty)).touches
    exact ⟨body, hbody, .inr (by simp only [body, bind_assoc])⟩

theorem Quiet.keeps {α : Type} {m : Synthesis α} (hm : Quiet m) : Step (fun _ => Comment.Keeps) m := by
  refine Step.mono hm ?_
  rintro i c c' rfl
  exact .refl c'

/-- Properties of inline types have no entry of their own. -/
theorem documentVariable_keeps {objectType : NodeId} (hparent : t.parent? node = some objectType)
    (hobject : (t.decl objectType).isObjectType = true) :
    Step (fun _ => Comment.Keeps) (documentVariable t table node) := by
  have hsome : (t.parent? node).filter (fun p => (t.decl p).isObjectType) = some objectType :=
    Option.filter_eq_some_iff.2 ⟨hparent, hobject⟩
  unfold documentVariable
  rw [hsome]
  refine Step.quiet_bind (findTypedef_quiet objectType) fun found => ?_
  cases found with
  | none => exact (Quiet.pure ()).keeps
  | some id => exact addTypedefProperty_step

/-- A declaration without a tag of its own keeps what is there, but for what is merged. -/
theorem document_other (hother : t.ownTag? node = none) :
    Step (fun _ => Comment.Keeps) (document t table node) ∨ Repeats t node (document t table node) := by
  unfold document
  split
  · rename_i role decl hdecl
    have hany : (t.parent? node).any (fun p => (t.decl p).isObjectType) = true := by
      by_contra hparent
      simp [Tree.ownTag?, hdecl, hparent] at hother
    obtain ⟨objectType, hparent, hobject⟩ := (Option.any_eq_true _ _).1 hany
    exact .inl (documentVariable_keeps hparent hobject)
  all_goals rename_i decl hdecl
  · simp [Tree.ownTag?, hdecl] at hother
  · simp [Tree.ownTag?, hdecl] at hother
  · simp [Tree.ownTag?, hdecl] at hother
  · exact .inr (documentInterface_repeats decl)
  · simp [Tree.ownTag?, hdecl] at hother
  · simp [Tree.ownTag?, hdecl] at hother
  · simp [Tree.ownTag?, hdecl] at hother
  · exact .inr (documentNamespace_repeats decl)
  · exact .inl (Quiet.pure ()).keeps

/-! ## All declarations -/

/-- A pass documents the declarations of the pre-order, one after the other. -/
theorem run_documentAll_of_runPass {p : Pass} (hrun : t.runPass table = .ok p) :
    (documentAll t table t.preorder).run {} = .ok ((), p) := by
  rw [Tree.runPass] at hrun
  cases hdone : (documentAll t table t.preorder).run {} with
  | error e =>
    rw [hdone] at hrun
    cases hrun
  | ok result =>
    rw [hdone] at hrun
    cases hrun
    rfl

end Synthesis

end DocBlock
