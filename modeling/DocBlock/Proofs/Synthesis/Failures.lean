import DocBlock.Proofs.Decl.Layout
import DocBlock.Proofs.Synthesis.Builders
import DocBlock.Proofs.TypeName.InlineNodes
import DocBlock.Synthesis.Kinds

/-! # How a pass can fail

A pass asks for the names of anonymous types in many places, and the first name that cannot be given
ends it. Each of these places asks for the name of an inline type or of the declaration that one is
written on, so that a bound on how these names fail (`Tree.Names`) bounds how the pass fails
(`Tree.Names.collect`). The bound on the depth of inline types is never reached
(`typeWithin_failsOnly`), because what is written on a declaration stands below it. -/

namespace DocBlock

/-! ## Failing computations -/

/-- A computation whose errors satisfy `E`. -/
def Error.Only {α : Type} (E : Error → Prop) (e : Except Error α) : Prop :=
  ∀ error, e = .error error → E error

namespace Error.Only

variable {α β : Type} {E : Error → Prop} {e : Except Error α} {f : α → Except Error β}

theorem ok (a : α) : Only E (.ok a) := by
  rintro error ⟨⟩

theorem bind (he : Only E e) (hf : ∀ a, e = .ok a → Only E (f a)) : Only E (e >>= f) := by
  intro error herror
  cases e with
  | error _ =>
    cases herror
    exact he error rfl
  | ok a => exact hf a rfl error herror

end Error.Only

namespace Synthesis

variable {α β : Type} {E : Error → Prop} {m : Synthesis α} {f : α → Synthesis β} {id : Nat}

/-- A step whose errors satisfy `E`. -/
def FailsOnly (E : Error → Prop) (m : Synthesis α) : Prop :=
  ∀ p, Error.Only E (m.run p)

namespace FailsOnly

theorem pure (a : α) : FailsOnly E (Pure.pure a) :=
  fun p => Error.Only.ok (a, p)

theorem bind (hm : FailsOnly E m) (hf : ∀ a, FailsOnly E (f a)) : FailsOnly E (m >>= f) := by
  intro p
  rw [StateT.run_bind]
  exact (hm p).bind fun result _ => hf result.1 result.2

theorem lift_bind {e : Except Error α} (he : Error.Only E e)
    (hf : ∀ a, e = .ok a → FailsOnly E (f a)) : FailsOnly E (liftM e >>= f) := by
  intro p
  cases e with
  | error error =>
    rintro _ ⟨⟩
    exact he error rfl
  | ok a => exact hf a rfl p

theorem map {g : α → β} (hm : FailsOnly E m) : FailsOnly E (g <$> m) := by
  rw [map_eq_pure_bind]
  exact hm.bind fun _ => .pure _

theorem forM {xs : List α} {g : α → Synthesis Unit} (hg : ∀ x ∈ xs, FailsOnly E (g x)) :
    FailsOnly E (xs.forM g) := by
  induction xs with
  | nil => exact .pure ()
  | cons x xs ih =>
    show FailsOnly E (g x >>= fun _ => xs.forM g)
    exact (hg x List.mem_cons_self).bind fun _ => ih fun y hy => hg y (List.mem_cons_of_mem x hy)

/-- What only looks at the state and changes it does not fail. -/
theorem of_ok {g : Pass → α × Pass} (hm : ∀ p, m.run p = .ok (g p)) : FailsOnly E m := by
  intro p
  rw [hm p]
  exact .ok _

theorem edit (g : Comment → Comment) : FailsOnly E (Synthesis.edit id g) :=
  of_ok fun _ => rfl

theorem setName (kind name : String) : FailsOnly E (Synthesis.setName id kind name) :=
  .edit _

theorem ensure (kind : String) (name : Option String) : FailsOnly E (Synthesis.ensure id kind name) :=
  .edit _

theorem newEntry (origin : EntryOrigin) (c : Comment) : FailsOnly E (Synthesis.newEntry origin c) :=
  of_ok fun _ => rfl

end FailsOnly

end Synthesis

/-! ## Names -/

namespace Tree

variable {t : Tree} {E : Error → Prop} {table : SymbolTable} {node inline : NodeId}

/-- A tree in which the inline types that annotate a declaration are children of it. -/
def InlineChildren (t : Tree) : Prop :=
  ∀ i type, (t.decl i).annotation? = some type → ∀ a ∈ type.inlineNodes, a ∈ t.children i

/-- A tree in which the inline types of an annotation are children of the declaration, and the names
that inline types ask for fail only with errors that satisfy `E`. -/
structure Names (t : Tree) (E : Error → Prop) : Prop where
  rooted : t.Rooted
  child : t.InlineChildren
  own : ∀ i : Nat, (t.decl i).isObjectType = true → Error.Only E (t.anonymousName i)
  written : ∀ i, ∀ type ∈ (t.decl i).writtenTypes, type.inlineNodes ≠ [] →
    Error.Only E (t.anonymousName i)

theorem Names.ownerName (h : t.Names E) (i : NodeId) : Error.Only E (t.ownerName i) := by
  induction i using Nat.strongRecOn with
  | ind i ih =>
    rw [Tree.ownerName]
    split
    · exact .ok _
    · rename_i a hfind
      have hlt : a < i := lt_of_mem_ancestors (List.mem_of_find?_eq_some hfind)
      split
      · rename_i hdecl
        refine (ih a hlt).bind fun owner _ => ?_
        exact (h.own a (by rw [hdecl]; rfl)).bind fun name _ => .ok _
      · exact .ok _
      · exact .ok _
      · exact .ok _

theorem Names.anonymousFullName (h : t.Names E) {owner : NodeId}
    (hname : Error.Only E (t.anonymousName owner)) : Error.Only E (t.anonymousFullName owner) :=
  (h.ownerName owner).bind fun _ _ => hname.bind fun _ _ => .ok _

mutual

/-- An annotation asks for the name of the declaration it is written on when it holds inline types. -/
theorem Names.resolveExpr (h : t.Names E) (owner : NodeId) : ∀ type : TypeExpr,
    (type.inlineNodes ≠ [] → Error.Only E (t.anonymousName owner)) →
      Error.Only E (t.resolveExpr table owner type)
  | .intrinsic text, _ => by
    unfold Tree.resolveExpr
    exact .ok _
  | .query text, _ => by
    unfold Tree.resolveExpr
    exact .ok _
  | .other text, _ => by
    unfold Tree.resolveExpr
    exact .ok _
  | .object node, hname => by
    unfold Tree.resolveExpr
    exact (h.anonymousFullName (hname (List.cons_ne_nil node []))).bind fun _ _ => .ok _
  | .function node, hname => by
    unfold Tree.resolveExpr
    exact (h.anonymousFullName (hname (List.cons_ne_nil node []))).bind fun _ _ => .ok _
  | .union members, hname => by
    unfold Tree.resolveExpr
    exact (Names.resolveExprs h owner members hname).bind fun _ _ => .ok _
  | .array element, hname => by
    unfold Tree.resolveExpr
    exact (Names.resolveExpr h owner element hname).bind fun _ _ => .ok _
  | .reference name args, hname => by
    unfold Tree.resolveExpr
    split
    · exact .ok _
    · exact (Names.resolveExprs h owner args hname).bind fun _ _ => .ok _

theorem Names.resolveExprs (h : t.Names E) (owner : NodeId) : ∀ types : List TypeExpr,
    (TypeExpr.allInlineNodes types ≠ [] → Error.Only E (t.anonymousName owner)) →
      Error.Only E (t.resolveExprs table owner types)
  | [], _ => by
    unfold Tree.resolveExprs
    exact .ok _
  | type :: types, hname => by
    unfold Tree.resolveExprs
    refine (Names.resolveExpr h owner type ?_).bind fun _ _ => ?_
    · exact fun hne => hname (List.append_ne_nil_of_left_ne_nil hne _)
    · refine (Names.resolveExprs h owner types ?_).bind fun _ _ => .ok _
      exact fun hne => hname (List.append_ne_nil_of_right_ne_nil _ hne)

end

theorem annotation_mem_writtenTypes {type : TypeExpr} (h : (t.decl node).annotation? = some type) :
    type ∈ (t.decl node).writtenTypes :=
  List.mem_append_left _ (Option.mem_toList.2 h)

theorem Names.resolveTypeName (h : t.Names E) (node : NodeId) (inferred : Option ResolvedType) :
    Error.Only E (t.resolveTypeName table node (t.decl node).annotation? inferred) := by
  cases htype : (t.decl node).annotation? with
  | none => exact .ok _
  | some type =>
    exact Names.resolveExpr h node type (h.written node type (annotation_mem_writtenTypes htype))

end Tree

/-! ## Types -/

namespace Synthesis

variable {t : Tree} {E : Error → Prop} {table : SymbolTable} {id node inline : Nat}

theorem addParent_failsOnly (h : t.Names E) (id : Nat) (node : NodeId) :
    FailsOnly E (addParent t id node) := by
  unfold addParent
  split
  · refine .lift_bind (h.ownerName node) fun owner _ => ?_
    cases owner with
    | none => exact .pure ()
    | some owner => exact .setName _ _
  · exact .pure ()

theorem addParam_failsOnly {typeFor : NodeId → Synthesis String} (htype : FailsOnly E (typeFor node)) :
    FailsOnly E (addParam t typeFor id node) := by
  unfold addParam
  split
  · exact htype.bind fun _ => .edit _
  · exact .pure ()

theorem addSignature_failsOnly {typeFor : NodeId → Synthesis String} {s : Signature}
    (hparams : ∀ j ∈ s.parameters, FailsOnly E (typeFor j))
    (hresult : FailsOnly E (typeFor s.declaration)) : FailsOnly E (addSignature t typeFor id s) := by
  rw [addSignature_eq]
  refine FailsOnly.bind ?_ fun _ => ?_
  · split
    · exact .edit _
    · exact .pure ()
  · refine (FailsOnly.forM fun j hj => addParam_failsOnly (hparams j hj)).bind fun _ => ?_
    split
    · exact hresult.bind fun _ => .edit _
    · exact .pure ()

/-- A signature is that of the declaration, and its parameters stand in the declaration. -/
theorem signature?_nodes {s : Signature} (hs : t.signature? node = some s) :
    s.declaration = node ∧ ∀ j ∈ s.parameters, j ∈ t.children node := by
  rw [Tree.signature?] at hs
  split at hs
  · obtain rfl := Option.some.inj hs
    exact ⟨rfl, fun j hj => (List.mem_filter.1 hj).1⟩
  · cases hs

/-- Behind the entry of an inline type, types are named only of nodes at or below the inline type. -/
theorem addInline_failsOnly (h : t.Names E) {typeFor : NodeId → Synthesis String}
    (hname : Error.Only E (t.anonymousName node)) (hinline : inline < t.size)
    (htype : ∀ j : Nat, inline ≤ j → j < t.size → FailsOnly E (typeFor j)) :
    FailsOnly E (addInline t typeFor node inline) := by
  unfold addInline
  refine .lift_bind hname fun name _ => ?_
  refine (FailsOnly.newEntry _ _).bind fun id => ?_
  refine (addParent_failsOnly h id node).bind fun _ => ?_
  split
  · refine (FailsOnly.ensure _ _).bind fun _ => ?_
    split
    · rename_i s hs
      obtain ⟨hdeclaration, hparameters⟩ := signature?_nodes hs
      refine addSignature_failsOnly (fun j hj => ?_) ?_
      · have hchild := hparameters j hj
        have hbehind := h.rooted.lt_of_mem_children hchild
        exact htype j (Nat.le_of_lt hbehind) (Tree.mem_children.1 hchild).1
      · rw [hdeclaration]
        exact htype inline (Nat.le_refl _) hinline
    · exact .pure ()
  · exact .edit _

/-- The inline types that the type of a declaration refers to are written in its annotation. -/
theorem exists_annotation_of_anonymous {result : TypeNameResult} {inferred : Option ResolvedType}
    (hresult : t.resolveTypeName table node (t.decl node).annotation? inferred = .ok result)
    (hinline : inline ∈ result.anonymous) :
    ∃ type, (t.decl node).annotation? = some type ∧ inline ∈ type.inlineNodes := by
  have hmem := (Tree.resolveTypeName_sublist hresult).subset hinline
  cases htype : (t.decl node).annotation? with
  | none =>
    rw [htype] at hmem
    exact absurd hmem List.not_mem_nil
  | some type =>
    rw [htype] at hmem
    exact ⟨type, rfl, hmem⟩

/-- The bound on the depth is never reached: what a type asks for stands behind it in the tree. -/
theorem typeWithin_failsOnly (h : t.Names E) (depth : Nat) (hnode : node < t.size)
    (hdepth : t.size ≤ depth + node) : FailsOnly E (typeWithin t table depth node) := by
  induction depth generalizing node with
  | zero => omega
  | succ depth ih =>
    unfold typeWithin
    refine .lift_bind (h.resolveTypeName node _) fun result hresult => ?_
    refine FailsOnly.bind (.of_ok fun _ => rfl) fun _ => ?_
    refine FailsOnly.bind (FailsOnly.forM fun inline hinline => ?_) fun _ => .pure _
    obtain ⟨type, htype, hmem⟩ := exists_annotation_of_anonymous hresult hinline
    have hchild := h.child node type htype inline hmem
    have hbehind := h.rooted.lt_of_mem_children hchild
    have hname := h.written node type (Tree.annotation_mem_writtenTypes htype)
      (List.ne_nil_of_mem hmem)
    exact addInline_failsOnly h hname (Tree.mem_children.1 hchild).1 fun j hj hsize =>
      ih hsize (by omega)

theorem typeFor_failsOnly (h : t.Names E) (hnode : node < t.size) :
    FailsOnly E (typeFor t table node) :=
  typeWithin_failsOnly h t.size hnode (Nat.le_add_right _ _)

theorem addFromSignature_failsOnly (h : t.Names E) {s : Signature} (hnode : node < t.size)
    (hs : t.signature? node = some s) : FailsOnly E (addFromSignature t table id s) := by
  obtain ⟨hdeclaration, hparameters⟩ := signature?_nodes hs
  refine addSignature_failsOnly (fun j hj => ?_) ?_
  · exact typeFor_failsOnly h (Tree.mem_children.1 (hparameters j hj)).1
  · rw [hdeclaration]
    exact typeFor_failsOnly h hnode

/-! ## Facts -/

/-- The type of a declaration that may have none, and what is done with it. -/
theorem optionalType_failsOnly (h : t.Names E) (hnode : node < t.size) (typed : Bool)
    {rest : Option String → Synthesis Unit} (hrest : ∀ type, FailsOnly E (rest type)) :
    FailsOnly E (do
      let type ← if typed then some <$> typeFor t table node else pure none
      rest type) := by
  cases typed with
  | true => exact (typeFor_failsOnly h hnode).map.bind hrest
  | false => exact hrest none

theorem addTypedName_failsOnly (h : t.Names E) (hnode : node < t.size) (kind : String) :
    FailsOnly E (addTypedName t table id kind node) := by
  unfold addTypedName
  dsimp only
  refine optionalType_failsOnly h hnode _ fun type => ?_
  refine (FailsOnly.edit _).bind fun _ => ?_
  split
  · split
    · exact .setName _ _
    · exact .pure ()
  · exact .pure ()

theorem addDefault_failsOnly : FailsOnly E (addDefault t id node) := by
  unfold addDefault
  split
  · exact .edit _
  · exact .pure ()

theorem addGeneric_failsOnly : FailsOnly E (addGeneric t id node) := by
  unfold addGeneric
  dsimp only
  split
  · exact .setName _ _
  · exact .pure ()

theorem addModifier_failsOnly : FailsOnly E (addModifier t id node) := by
  have htag : ∀ (b : Bool) (kind : String), FailsOnly E (if b then ensure id kind else pure ()) := by
    intro b kind
    cases b with
    | false => exact .pure ()
    | true => exact .ensure kind none
  rw [addModifier_eq]
  refine FailsOnly.bind ?_ fun _ => htag _ _
  split
  · exact .pure ()
  · refine FailsOnly.bind ?_ fun _ => htag _ _
    split
    · exact .ensure _ _
    · exact .pure ()

theorem addHeritage_failsOnly (h : t.Names E) : FailsOnly E (addHeritage t table id node) := by
  unfold addHeritage
  refine FailsOnly.forM fun clause hclause => FailsOnly.forM fun type htype => ?_
  refine .lift_bind (Tree.Names.resolveExpr h node type ?_) fun result _ => .ensure _ _
  exact h.written node type (List.mem_append_right _ (List.mem_flatMap.2 ⟨clause, hclause, htype⟩))

theorem keyOf_only (h : t.Names E) (node : NodeId) : Error.Only E (keyOf t node) :=
  (h.ownerName node).bind fun _ _ => .ok _

theorem addVariation_failsOnly (h : t.Names E) : FailsOnly E (addVariation t id node) := by
  unfold addVariation
  refine .lift_bind (keyOf_only h node) fun key _ => ?_
  refine FailsOnly.bind (.of_ok fun _ => rfl) fun _ => ?_
  refine FailsOnly.bind (.of_ok (g := fun p => (p, p)) fun _ => rfl) fun pass => ?_
  refine FailsOnly.bind (.of_ok fun _ => rfl) fun _ => ?_
  split
  · exact .setName _ _
  · exact .pure ()

theorem mergeRepeated_failsOnly (h : t.Names E) : FailsOnly E (mergeRepeated t id node) := by
  unfold mergeRepeated
  refine .lift_bind (keyOf_only h node) fun key _ => ?_
  refine FailsOnly.bind (.of_ok fun _ => rfl) fun _ => ?_
  exact FailsOnly.bind (.of_ok (g := fun p => (p, p)) fun _ => rfl) fun pass => .of_ok fun _ => rfl

theorem addEnumMembers_failsOnly (members : List EnumMember) :
    FailsOnly E (addEnumMembers members id) :=
  .forM fun _ _ => .edit _

theorem addTypedefProperty_failsOnly (h : t.Names E) (hnode : node < t.size) :
    FailsOnly E (addTypedefProperty t table id node) := by
  unfold addTypedefProperty
  exact optionalType_failsOnly h hnode _ fun type => .edit _

/-! ## Signatures of interfaces -/

/-- The signatures of members are those of children. -/
theorem mem_memberSignatures {role : CallableRole} {s : Signature}
    (hs : s ∈ t.memberSignatures node role) : ∃ j ∈ t.children node, t.signature? j = some s := by
  obtain ⟨j, hj, hsignature⟩ := List.mem_filterMap.1 hs
  refine ⟨j, hj, ?_⟩
  split at hsignature
  · split at hsignature
    · exact hsignature
    · cases hsignature
  · cases hsignature

theorem addCallbacks_failsOnly (h : t.Names E) {signatures : List Signature}
    (hsignatures : ∀ s ∈ signatures, ∃ j : Nat, j < t.size ∧ t.signature? j = some s) :
    FailsOnly E (addCallbacks t table id node signatures) := by
  unfold addCallbacks
  refine FailsOnly.forM fun s hs => ?_
  obtain ⟨j, hj, hsignature⟩ := hsignatures s hs
  refine FailsOnly.bind (.of_ok (g := fun p => (p, p)) fun _ => rfl) fun pass => ?_
  refine (FailsOnly.newEntry _ _).bind fun sibling => ?_
  refine FailsOnly.bind (.setName _ _) fun _ => ?_
  refine addGeneric_failsOnly.bind fun _ => ?_
  refine (addFromSignature_failsOnly h hj hsignature).bind fun _ => ?_
  exact (addParent_failsOnly h _ _).bind fun _ => addVariation_failsOnly h

theorem addSignatureEntries_failsOnly (h : t.Names E) (kind : String) {signatures : List Signature}
    (hsignatures : ∀ s ∈ signatures, ∃ j : Nat, j < t.size ∧ t.signature? j = some s) :
    FailsOnly E (addSignatureEntries t table kind signatures) := by
  unfold addSignatureEntries
  refine FailsOnly.forM fun s hs => ?_
  obtain ⟨j, hj, hsignature⟩ := hsignatures s hs
  refine (FailsOnly.newEntry _ _).bind fun linked => ?_
  refine (FailsOnly.ensure _ _).bind fun _ => ?_
  refine addGeneric_failsOnly.bind fun _ => ?_
  refine (addFromSignature_failsOnly h hj hsignature).bind fun _ => ?_
  exact (addParent_failsOnly h _ _).bind fun _ => addVariation_failsOnly h

/-! ## Declarations -/

theorem findTypedef_failsOnly (h : t.Names E) (hnode : (t.decl node).isObjectType = true) :
    FailsOnly E (findTypedef t node) := by
  unfold findTypedef
  refine .lift_bind (h.own node hnode) fun name _ => ?_
  split
  · exact .lift_bind (h.ownerName _) fun _ _ => .of_ok fun _ => rfl
  · exact .of_ok fun _ => rfl

theorem documentVariable_failsOnly (h : t.Names E) (hnode : node < t.size) :
    FailsOnly E (documentVariable t table node) := by
  unfold documentVariable
  split
  · rename_i objectType hparent
    have hkind := (Option.filter_eq_some_iff.1 hparent).2
    refine (findTypedef_failsOnly h hkind).bind fun found => ?_
    cases found with
    | none => exact .pure ()
    | some id => exact addTypedefProperty_failsOnly h hnode
  · refine (FailsOnly.newEntry _ _).bind fun id => ?_
    refine (addTypedName_failsOnly h hnode _).bind fun _ => ?_
    refine addDefault_failsOnly.bind fun _ => ?_
    exact (addParent_failsOnly h _ _).bind fun _ => addModifier_failsOnly

theorem documentFunction_failsOnly (h : t.Names E) (hnode : node < t.size) :
    FailsOnly E (documentFunction t table node) := by
  unfold documentFunction
  refine (FailsOnly.newEntry _ _).bind fun id => ?_
  refine FailsOnly.bind (.setName _ _) fun _ => ?_
  refine (addVariation_failsOnly h).bind fun _ => ?_
  refine addGeneric_failsOnly.bind fun _ => ?_
  have hrest : FailsOnly E (do addParent t id node; addModifier t id node) :=
    (addParent_failsOnly h _ _).bind fun _ => addModifier_failsOnly
  cases hs : t.signature? node with
  | none => exact hrest
  | some s => exact (addFromSignature_failsOnly h hnode hs).bind fun _ => hrest

theorem documentConstructor_failsOnly (h : t.Names E) (hnode : node < t.size) :
    FailsOnly E (documentConstructor t table node) := by
  unfold documentConstructor
  refine (FailsOnly.newEntry _ _).bind fun id => ?_
  refine (FailsOnly.ensure _ _).bind fun _ => ?_
  refine (addVariation_failsOnly h).bind fun _ => ?_
  refine (addParent_failsOnly h _ _).bind fun _ => ?_
  cases hs : t.signature? node with
  | none => exact .pure ()
  | some s => exact addFromSignature_failsOnly h hnode hs

theorem documentInterface_failsOnly (h : t.Names E) (decl : Interface)
    (hdecl : t.decl node = .interface decl) : FailsOnly E (documentInterface t table node decl) := by
  have hmembers : ∀ role, ∀ s ∈ t.memberSignatures node role,
      ∃ j : Nat, j < t.size ∧ t.signature? j = some s := by
    intro role s hs
    obtain ⟨j, hj, hsignature⟩ := mem_memberSignatures hs
    exact ⟨j, (Tree.mem_children.1 hj).1, hsignature⟩
  have hcalls : t.callSignatures node = t.memberSignatures node .callSignature := by
    rw [Tree.callSignatures, hdecl]
    rfl
  unfold documentInterface
  dsimp only
  rw [hcalls]
  refine (FailsOnly.newEntry _ _).bind fun id => ?_
  split
  · exact (addCallbacks_failsOnly h (hmembers _)).bind fun _ => .edit _
  · refine FailsOnly.bind (.setName _ _) fun _ => ?_
    refine addGeneric_failsOnly.bind fun _ => ?_
    refine (addHeritage_failsOnly h).bind fun _ => ?_
    refine (addParent_failsOnly h _ _).bind fun _ => ?_
    refine (addSignatureEntries_failsOnly h _ (hmembers _)).bind fun _ => ?_
    refine (addSignatureEntries_failsOnly h _ (hmembers _)).bind fun _ => ?_
    exact mergeRepeated_failsOnly h

theorem documentClass_failsOnly (h : t.Names E) : FailsOnly E (documentClass t table node) := by
  unfold documentClass
  refine (FailsOnly.newEntry _ _).bind fun id => ?_
  refine FailsOnly.bind (.setName _ _) fun _ => ?_
  refine (addVariation_failsOnly h).bind fun _ => ?_
  refine addGeneric_failsOnly.bind fun _ => ?_
  exact (addHeritage_failsOnly h).bind fun _ => addParent_failsOnly h _ _

theorem documentAlias_failsOnly (h : t.Names E) (hnode : node < t.size) :
    FailsOnly E (documentAlias t table node) := by
  unfold documentAlias
  refine (FailsOnly.newEntry _ _).bind fun id => ?_
  refine (addTypedName_failsOnly h hnode _).bind fun _ => ?_
  exact (addVariation_failsOnly h).bind fun _ => addParent_failsOnly h _ _

theorem documentEnum_failsOnly (h : t.Names E) (decl : Enum) :
    FailsOnly E (documentEnum t node decl) := by
  unfold documentEnum
  refine (FailsOnly.newEntry _ _).bind fun id => ?_
  refine FailsOnly.bind (.setName _ _) fun _ => ?_
  refine addModifier_failsOnly.bind fun _ => ?_
  exact (addParent_failsOnly h _ _).bind fun _ => addEnumMembers_failsOnly _

theorem documentNamespace_failsOnly (h : t.Names E) (decl : Namespace) :
    FailsOnly E (documentNamespace t node decl) := by
  unfold documentNamespace
  refine (FailsOnly.newEntry _ _).bind fun id => ?_
  split
  · exact FailsOnly.bind (.setName _ _) fun _ => mergeRepeated_failsOnly h
  · refine FailsOnly.bind (.setName _ _) fun _ => ?_
    exact (addParent_failsOnly h _ _).bind fun _ => mergeRepeated_failsOnly h

theorem document_failsOnly (h : t.Names E) (hnode : node < t.size) :
    FailsOnly E (document t table node) := by
  unfold document
  split
  · exact documentVariable_failsOnly h hnode
  · exact documentFunction_failsOnly h hnode
  · exact documentFunction_failsOnly h hnode
  · exact documentConstructor_failsOnly h hnode
  · rename_i decl hdecl
    exact documentInterface_failsOnly h decl hdecl
  · exact documentClass_failsOnly h
  · exact documentAlias_failsOnly h hnode
  · exact documentEnum_failsOnly h _
  · exact documentNamespace_failsOnly h _
  · exact .pure ()

end Synthesis

theorem Tree.Names.collect {t : Tree} {E : Error → Prop} (h : t.Names E) (table : SymbolTable) :
    Error.Only E (t.collect table) := by
  have hpass : Synthesis.FailsOnly E (Synthesis.documentAll t table t.preorder) :=
    .forM fun node hnode => Synthesis.document_failsOnly h (h.rooted.mem_preorder.1 hnode)
  refine Error.Only.bind ?_ fun _ _ => .ok _
  exact (hpass {}).bind fun _ _ => .ok _

end DocBlock
