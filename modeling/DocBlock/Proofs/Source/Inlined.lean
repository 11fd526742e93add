import DocBlock.Proofs.Source.Placed

/-! # Inline types stand where they are written

The nodes that an annotation names are added while the annotation is read, below the declaration that
is annotated. So each of them is a child of that declaration, it is an object or a function type, and no
annotation names a node twice (`inlined_toTree`). -/

namespace DocBlock

namespace Tree

variable {t t' t'' : Tree} {owner i b b' : Nat} {nodes nodes' : List Nat} {type : TypeExpr}
  {decl : Decl}

/-! ## Annotations of a tree -/

/-- Nodes of inline types that stand directly below `owner` and not before position `b`. -/
structure Inlines (t : Tree) (owner b : Nat) (nodes : List Nat) : Prop where
  child : ∀ a : Nat, a ∈ nodes → b ≤ a ∧ a < t.size ∧ t.parent? a = some owner
  inline : ∀ a : Nat, a ∈ nodes → (t.decl a).isObjectType = true ∨ (t.decl a).isFunctionType = true
  nodup : nodes.Nodup

/-- An annotation of `owner` whose inline types stand below it and not before position `b`. -/
structure Annotates (t : Tree) (owner b : Nat) (type : TypeExpr) : Prop
    extends t.Inlines owner b type.inlineNodes where
  function : ∀ a : Nat, type = .function a → (t.decl a).isFunctionType = true

/-- A tree whose inline types all stand where they are written. -/
def Inlined (t : Tree) : Prop :=
  ∀ (i : Nat) type, (t.decl i).annotation? = some type → t.Annotates i 0 type

/-- A tree with more nodes in which each node has kept its place and is still of its kind. -/
structure Agrees (t t' : Tree) : Prop where
  size_le : t.size ≤ t'.size
  parent : ∀ i : Nat, i < t.size → t'.parent? i = t.parent? i
  objectType : ∀ i : Nat, i < t.size → (t'.decl i).isObjectType = (t.decl i).isObjectType
  functionType : ∀ i : Nat, i < t.size → (t'.decl i).isFunctionType = (t.decl i).isFunctionType

theorem Agrees.refl (t : Tree) : t.Agrees t :=
  ⟨Nat.le_refl _, fun _ _ => rfl, fun _ _ => rfl, fun _ _ => rfl⟩

theorem Agrees.trans (h : t.Agrees t') (h' : t'.Agrees t'') : t.Agrees t'' where
  size_le := Nat.le_trans h.size_le h'.size_le
  parent i hi := by rw [h'.parent i (Nat.lt_of_lt_of_le hi h.size_le), h.parent i hi]
  objectType i hi := by rw [h'.objectType i (Nat.lt_of_lt_of_le hi h.size_le), h.objectType i hi]
  functionType i hi := by
    rw [h'.functionType i (Nat.lt_of_lt_of_le hi h.size_le), h.functionType i hi]

theorem agrees_push (t : Tree) (parent : Nat) (decl : Decl) (comment : Option String)
    (excerpt : String) : t.Agrees (t.push parent decl comment excerpt) := by
  have hold : ∀ i : Nat, i < t.size → (t.push parent decl comment excerpt).node i = t.node i := by
    intro i hi
    rw [node_push, if_neg (Nat.ne_of_lt hi)]
  refine ⟨?_, fun i hi => ?_, fun i hi => ?_, fun i hi => ?_⟩
  · rw [size_push]
    omega
  · rw [parent?, hold i hi, parent?]
  · rw [Tree.decl, hold i hi, Tree.decl]
  · rw [Tree.decl, hold i hi, Tree.decl]

/-- What is found out about a declaration later does not make it another kind of declaration. -/
theorem agrees_modifyDecl {f : Decl → Decl} (hobject : ∀ d, (f d).isObjectType = d.isObjectType)
    (hfunction : ∀ d, (f d).isFunctionType = d.isFunctionType) : t.Agrees (t.modifyDecl i f) := by
  refine ⟨Nat.le_of_eq (size_modifyDecl t i f).symm, fun j _ => parent?_modifyDecl t i j f, ?_, ?_⟩
  · intro j _
    rcases decl_modifyDecl t i j f with h | h
    · rw [h]
    · rw [h, hobject]
  · intro j _
    rcases decl_modifyDecl t i j f with h | h
    · rw [h]
    · rw [h, hfunction]

theorem agrees_annotate (t : Tree) (i : Nat) (type : TypeExpr) :
    t.Agrees (t.modifyDecl i (Decl.annotate type)) := by
  refine agrees_modifyDecl ?_ ?_
  · intro d
    cases d <;> rfl
  · intro d
    rcases d with _ | _ | ⟨role, _⟩ | _ | _ | _ | _ | _ | _ | _ | _ | _
    case callable => cases role <;> rfl
    all_goals rfl

theorem agrees_inherit (t : Tree) (i : Nat) (heritage : List HeritageClause) :
    t.Agrees (t.modifyDecl i (Decl.inherit heritage)) := by
  refine agrees_modifyDecl ?_ ?_
  · intro d
    cases d <;> rfl
  · intro d
    cases d <;> rfl

theorem Inlines.agrees (h : t.Inlines owner b nodes) (ht : t.Agrees t') :
    t'.Inlines owner b nodes where
  child a ha := by
    obtain ⟨hle, hlt, hparent⟩ := h.child a ha
    exact ⟨hle, Nat.lt_of_lt_of_le hlt ht.size_le, by rw [ht.parent a hlt, hparent]⟩
  inline a ha := by
    obtain ⟨-, hlt, -⟩ := h.child a ha
    rw [ht.objectType a hlt, ht.functionType a hlt]
    exact h.inline a ha
  nodup := h.nodup

theorem Inlines.mono (h : t.Inlines owner b nodes) (hb : b' ≤ b) : t.Inlines owner b' nodes where
  child a ha := by
    obtain ⟨hle, hrest⟩ := h.child a ha
    exact ⟨Nat.le_trans hb hle, hrest⟩
  inline := h.inline
  nodup := h.nodup

theorem inlines_nil (t : Tree) (owner b : Nat) : t.Inlines owner b [] :=
  ⟨fun _ ha => absurd ha List.not_mem_nil, fun _ ha => absurd ha List.not_mem_nil, List.nodup_nil⟩

/-- Nodes that were added one group after the other. -/
theorem Inlines.append (h : t.Inlines owner b nodes) (ht : t.Agrees t')
    (h' : t'.Inlines owner t.size nodes') (hb : b ≤ t.size) : t'.Inlines owner b (nodes ++ nodes') where
  child a ha := by
    rcases List.mem_append.1 ha with ha | ha
    · exact (h.agrees ht).child a ha
    · exact (h'.mono hb).child a ha
  inline a ha := by
    rcases List.mem_append.1 ha with ha | ha
    · exact (h.agrees ht).inline a ha
    · exact h'.inline a ha
  nodup := by
    rw [List.nodup_append]
    refine ⟨h.nodup, h'.nodup, ?_⟩
    rintro a ha _ ha' rfl
    have hlt := (h.child a ha).2.1
    have hle := (h'.child a ha').1
    omega

/-- An annotation that is no function type needs only its inline nodes looked at. -/
theorem Inlines.annotates (h : t.Inlines owner b type.inlineNodes) (hne : ∀ a, type ≠ .function a) :
    t.Annotates owner b type :=
  ⟨h, fun a ha => absurd ha (hne a)⟩

theorem Annotates.agrees (h : t.Annotates owner b type) (ht : t.Agrees t') :
    t'.Annotates owner b type where
  toInlines := h.toInlines.agrees ht
  function a ha := by
    have hmem : a ∈ type.inlineNodes := by
      rw [ha]
      exact List.mem_singleton.2 rfl
    rw [ht.functionType a (h.child a hmem).2.1]
    exact h.function a ha

theorem Annotates.mono (h : t.Annotates owner b type) (hb : b' ≤ b) : t.Annotates owner b' type :=
  ⟨h.toInlines.mono hb, h.function⟩

/-! ## Growing -/

/-- A tree that has become another one by adding nodes and facts about them, with all inline types
where they are written. -/
structure Spreads (t t' : Tree) : Prop extends t.Agrees t' where
  inlined : t.Inlined → t'.Inlined

theorem Spreads.refl (t : Tree) : t.Spreads t :=
  ⟨.refl t, id⟩

theorem Spreads.trans (h : t.Spreads t') (h' : t'.Spreads t'') : t.Spreads t'' where
  toAgrees := h.toAgrees.trans h'.toAgrees
  inlined ht := h'.inlined (h.inlined ht)

theorem spreads_push (t : Tree) (hplain : decl.annotation? = none) (parent : Nat)
    (comment : Option String) (excerpt : String) : t.Spreads (t.push parent decl comment excerpt) := by
  have hagrees := t.agrees_push parent decl comment excerpt
  refine ⟨hagrees, fun ht i type htype => ?_⟩
  -- The new node has no annotation yet, so the annotations are those that were there before.
  rw [Tree.decl, node_push] at htype
  split at htype
  · rw [hplain] at htype
    cases htype
  · exact (ht i type htype).agrees hagrees

theorem decl_modifyDecl_of_ne {f : Decl → Decl} {j : Nat} (hj : j ≠ i) :
    (t.modifyDecl i f).decl j = t.decl j := by
  simp only [Tree.decl, node, modifyDecl, Array.getD_eq_getD_getElem?, Array.getElem?_modify,
    if_neg (Ne.symm hj)]

theorem spreads_modifyDecl {f : Decl → Decl} (hagrees : t.Agrees (t.modifyDecl i f))
    (hchange : ∀ type, (f (t.decl i)).annotation? = some type →
      (t.decl i).annotation? = some type ∨ t.Annotates i 0 type) :
    t.Spreads (t.modifyDecl i f) := by
  refine ⟨hagrees, fun ht j type htype => ?_⟩
  by_cases hj : j = i
  · subst hj
    rcases decl_modifyDecl t j j f with h | h
    · rw [h] at htype
      exact (ht j type htype).agrees hagrees
    · rw [h] at htype
      rcases hchange type htype with hbefore | hnew
      · exact (ht j type hbefore).agrees hagrees
      · exact hnew.agrees hagrees
  · rw [decl_modifyDecl_of_ne hj] at htype
    exact (ht j type htype).agrees hagrees

end Tree

namespace Source.Placing

open DocBlock.Tree (Spreads Annotates Inlines)

variable {α β : Type} {n : Nat} {decl : Decl}

/-! ## Changes below a node -/

/-- A change after which the inline types of a tree with node `n` stand where they are written. -/
def Inlining (n : Nat) (m : Placing α) : Prop :=
  ∀ t : Tree, n < t.size → t.Spreads (m.run t).2

namespace Inlining

theorem pure (a : α) : Inlining n (Pure.pure a : Placing α) := fun t _ => .refl t

theorem bind {m : Placing α} {f : α → Placing β} (hm : Inlining n m) (hf : ∀ a, Inlining n (f a)) :
    Inlining n (m >>= f) := by
  intro t ht
  have hfirst := hm t ht
  exact hfirst.trans (hf (m.run t).1 (m.run t).2 (Nat.lt_of_lt_of_le ht hfirst.size_le))

/-- What follows the adding of a node may use that node. -/
theorem add_bind {origin : Origin} {f : NodeId → Placing β} (hplain : decl.annotation? = none)
    (hf : ∀ node, Inlining node (f node)) : Inlining n (add n origin decl >>= f) := by
  intro t _
  have hpush := t.spreads_push hplain n origin.doc origin.excerpt
  have hsize : t.size < (t.push n decl origin.doc origin.excerpt).size := by
    rw [Tree.size_push]
    omega
  exact hpush.trans (hf t.size _ hsize)

theorem discard_add {origin : Origin} (hplain : decl.annotation? = none) :
    Inlining n (discard (add n origin decl)) :=
  fun t _ => t.spreads_push hplain n origin.doc origin.excerpt

theorem forM {xs : List α} {f : α → Placing Unit} (hf : ∀ x, Inlining n (f x)) :
    Inlining n (xs.forM f) := by
  induction xs with
  | nil => exact .pure ()
  | cons x xs ih =>
    show Inlining n (f x >>= fun _ => xs.forM f)
    exact (hf x).bind fun _ => ih

theorem mapM {xs : List α} {f : α → Placing β} (hf : ∀ x, Inlining n (f x)) :
    Inlining n (xs.mapM f) := by
  induction xs with
  | nil => exact .pure []
  | cons x xs ih =>
    rw [List.mapM_cons]
    exact (hf x).bind fun _ => ih.bind fun _ => .pure _

theorem inherit (node : NodeId) (heritage : List HeritageClause) :
    Inlining n (Placing.inherit node heritage) := by
  intro t _
  refine Tree.spreads_modifyDecl (t.agrees_inherit node heritage) ?_
  intro type htype
  left
  cases hdecl : t.decl node <;> rw [hdecl] at htype <;> exact htype

end Inlining

/-- A change that gives inline types below `owner`, all of them new. -/
def GivesNodes (owner : Nat) (nodes : α → List NodeId) (m : Placing α) : Prop :=
  ∀ t : Tree, owner < t.size → t.Spreads (m.run t).2 ∧
    (m.run t).2.Inlines owner t.size (nodes (m.run t).1)

/-- A change that gives an annotation for `owner`, with all of its inline types new. -/
def GivesType (owner : Nat) (m : Placing TypeExpr) : Prop :=
  ∀ t : Tree, owner < t.size → t.Spreads (m.run t).2 ∧
    (m.run t).2.Annotates owner t.size (m.run t).1

namespace GivesType

variable {owner : Nat} {m : Placing TypeExpr}

/-- An annotation without inline types. -/
theorem pure {type : TypeExpr} (hnil : type.inlineNodes = []) : GivesType owner (Pure.pure type) := by
  intro t _
  refine ⟨.refl t, ⟨?_, ?_⟩⟩
  · show t.Inlines owner t.size type.inlineNodes
    rw [hnil]
    exact t.inlines_nil owner t.size
  · rintro a (rfl : type = .function a)
    cases hnil

/-- An annotation made from others keeps their inline types. -/
theorem ofNodes {nodes : α → List NodeId} {m : Placing α} {f : α → TypeExpr}
    (hm : GivesNodes owner nodes m) (hnodes : ∀ a, (f a).inlineNodes = nodes a)
    (hne : ∀ a b, f a ≠ .function b) : GivesType owner (m >>= fun a => Pure.pure (f a)) := by
  intro t ht
  obtain ⟨hspreads, hinlines⟩ := hm t ht
  refine ⟨hspreads, Inlines.annotates ?_ (hne _)⟩
  show (m.run t).2.Inlines owner t.size (f (m.run t).1).inlineNodes
  rw [hnodes]
  exact hinlines

/-- A node of its own is the only inline type of its annotation. -/
theorem add_bind {origin : Origin} {f : NodeId → Placing Unit} {type : NodeId → TypeExpr}
    (hplain : decl.annotation? = none)
    (hinline : decl.isObjectType = true ∨ decl.isFunctionType = true)
    (hf : ∀ node, Inlining node (f node)) (hnodes : ∀ node, (type node).inlineNodes = [node])
    (hfunction : ∀ node a, type node = .function a → node = a ∧ decl.isFunctionType = true) :
    GivesType owner (do
      let node ← add owner origin decl
      f node
      return type node) := by
  intro t ht
  have hpush := t.spreads_push hplain owner origin.doc origin.excerpt
  have hsize : t.size < (t.push owner decl origin.doc origin.excerpt).size := by
    rw [Tree.size_push]
    omega
  have hrest := hf t.size _ hsize
  have hself : (t.push owner decl origin.doc origin.excerpt).node t.size =
      { parent := some owner, decl, comment := origin.doc, excerpt := origin.excerpt } := by
    rw [Tree.node_push, if_pos rfl]
  -- The node was added below its owner, and what follows leaves it there.
  have hadded : (t.push owner decl origin.doc origin.excerpt).Annotates owner t.size (type t.size) := by
    refine ⟨⟨?_, ?_, ?_⟩, ?_⟩
    · intro a ha
      rw [hnodes, List.mem_singleton] at ha
      subst ha
      refine ⟨Nat.le_refl _, hsize, ?_⟩
      rw [Tree.parent?, hself]
    · intro a ha
      rw [hnodes, List.mem_singleton] at ha
      subst ha
      rw [Tree.decl, hself]
      exact hinline
    · rw [hnodes]
      exact List.nodup_singleton _
    · intro a ha
      obtain ⟨rfl, hdecl⟩ := hfunction t.size a ha
      rw [Tree.decl, hself]
      exact hdecl
  exact ⟨hpush.trans hrest, hadded.agrees hrest.toAgrees⟩

/-- The annotation is given to the declaration that it was read for. -/
theorem annotate_bind {f : TypeExpr → Placing β} (hm : GivesType owner m)
    (hf : ∀ type, Inlining owner (f type)) : Inlining owner (do
      let type ← m
      annotate owner type
      f type) := by
  intro t ht
  obtain ⟨hspreads, hannotates⟩ := hm t ht
  have howner : owner < (m.run t).2.size := Nat.lt_of_lt_of_le ht hspreads.size_le
  have hset : (m.run t).2.Spreads ((m.run t).2.modifyDecl owner (Decl.annotate (m.run t).1)) := by
    refine Tree.spreads_modifyDecl (Tree.agrees_annotate _ owner _) ?_
    intro type htype
    cases hdecl : (m.run t).2.decl owner <;> rw [hdecl] at htype <;>
      first
      | exact .inl htype
      | (obtain rfl := Option.some.inj htype
         exact .inr (hannotates.mono (Nat.zero_le _)))
  refine (hspreads.trans hset).trans (hf _ _ ?_)
  rw [Tree.size_modifyDecl]
  exact howner

end GivesType

/-! ## Types, parameters and members -/

mutual

theorem type_gives (owner : NodeId) : ∀ form, GivesType owner (type owner form)
  | .word text => by
    unfold type
    exact .pure rfl
  | .named name args => by
    unfold type
    exact .ofNodes (types_gives owner args) (fun _ => rfl) (by simp)
  | .array element => by
    unfold type
    have helement : GivesNodes owner TypeExpr.inlineNodes (type owner element) := by
      intro t ht
      obtain ⟨hspreads, hannotates⟩ := type_gives owner element t ht
      exact ⟨hspreads, hannotates.toInlines⟩
    exact .ofNodes helement (fun _ => rfl) (by simp)
  | .union members => by
    unfold type
    exact .ofNodes (types_gives owner members) (fun _ => rfl) (by simp)
  | .query text => by
    unfold type
    exact .pure rfl
  | .other text => by
    unfold type
    exact .pure rfl
  | .object origin members => by
    unfold type
    exact .add_bind rfl (.inl rfl) (fun node => typeMembers_inlining node members) (fun _ => rfl)
      (by simp)
  | .function origin typeParams parameters result => by
    unfold type
    let rest : NodeId → Placing Unit := fun node => do
      params node 0 parameters
      let result ← type node result
      annotate node result
    have hrest : ∀ node, Inlining node (rest node) := by
      intro node
      refine (params_inlining node 0 parameters).bind fun _ => ?_
      exact (type_gives node result).annotate_bind fun _ => .pure ()
    have hgives : GivesType owner (do
        let node ← add owner origin (.callable .functionType { typeParams })
        rest node
        return .function node) :=
      .add_bind rfl (.inr rfl) hrest (fun _ => rfl) (by simp [Decl.isFunctionType])
    simpa only [rest, bind_assoc] using hgives

theorem types_gives (owner : NodeId) :
    ∀ forms, GivesNodes owner TypeExpr.allInlineNodes (types owner forms)
  | [] => by
    unfold types
    exact fun t _ => ⟨.refl t, t.inlines_nil owner t.size⟩
  | form :: forms => by
    unfold types
    intro t ht
    obtain ⟨hfirst, hannotates⟩ := type_gives owner form t ht
    obtain ⟨hrest, hinlines⟩ :=
      types_gives owner forms _ (Nat.lt_of_lt_of_le ht hfirst.size_le)
    exact ⟨hfirst.trans hrest, hannotates.toInlines.append hrest.toAgrees hinlines hfirst.size_le⟩

theorem annotation_inlining (node : NodeId) : ∀ form, Inlining node ( annotation node form)
  | none => by
    unfold annotation
    exact .pure _
  | some form => by
    unfold annotation
    exact (type_gives node form).annotate_bind fun _ => .pure ()

theorem param_inlining (parent : NodeId) (index : Nat) :
    ∀ form, Inlining parent (param parent index form)
  | .mk origin shape form => by
    unfold param
    exact .add_bind rfl fun node => annotation_inlining node form

theorem params_inlining (parent : NodeId) (index : Nat) :
    ∀ forms, Inlining parent (params parent index forms)
  | [] => by
    unfold params
    exact .pure _
  | form :: forms => by
    unfold params
    exact (param_inlining parent index form).bind fun _ => params_inlining parent (index + 1) forms

theorem typeMember_inlining (parent : NodeId) : ∀ form, Inlining parent (typeMember parent form)
  | .property origin name optional form => by
    unfold typeMember
    exact .add_bind rfl fun node => annotation_inlining node form
  | .callable origin role name typeParams parameters result => by
    unfold typeMember
    refine .add_bind rfl fun node => ?_
    exact (params_inlining node 0 parameters).bind fun _ => annotation_inlining node result
  | .accessor origin name setter => by
    unfold typeMember
    exact .discard_add rfl
  | .index => by
    unfold typeMember
    exact .pure _

theorem typeMembers_inlining (parent : NodeId) :
    ∀ forms, Inlining parent (typeMembers parent forms)
  | [] => by
    unfold typeMembers
    exact .pure _
  | form :: forms => by
    unfold typeMembers
    exact (typeMember_inlining parent form).bind fun _ => typeMembers_inlining parent forms

end

/-! ## Declarations -/

theorem function_inlining (parent : NodeId) (origin : Origin) (role : CallableRole) (name : String)
    (modifiers : Modifiers) (form : FunctionForm) :
    Inlining parent (function parent origin role name modifiers form) := by
  unfold function
  refine .add_bind rfl fun node => ?_
  exact (params_inlining node 0 form.params).bind fun _ => annotation_inlining node form.result

theorem inherited_inlining (owner : NodeId) (form : HeritageForm) :
    Inlining owner (inherited owner form) := by
  intro t ht
  exact (types_gives owner form.args t ht).1

theorem classMember_inlining (parent : NodeId) (form : ClassMemberForm) :
    Inlining parent (classMember parent form) := by
  cases form with
  | constructor origin access parameters =>
    exact .add_bind rfl fun node => params_inlining node 0 parameters
  | method origin name modifiers form =>
    exact function_inlining parent origin .method name modifiers form
  | accessor origin name setter => exact .discard_add rfl
  | property origin decl form => exact .add_bind rfl fun node => annotation_inlining node form

theorem classDecl_inlining (parent : NodeId) (origin : Origin) (name : String) (form : ClassForm) :
    Inlining parent (classDecl parent origin name form) := by
  unfold classDecl
  refine .add_bind rfl fun node => ?_
  refine (Inlining.mapM (inherited_inlining node)).bind fun _ => ?_
  refine (Inlining.mapM (inherited_inlining node)).bind fun _ => ?_
  exact (Inlining.inherit node _).bind fun _ => .forM (classMember_inlining node)

theorem interface_inlining (parent : NodeId) (origin : Origin) (name : String)
    (typeParams : List String) (parents : List HeritageForm) (members : List MemberForm) :
    Inlining parent (interface parent origin name typeParams parents members) := by
  unfold interface
  refine .add_bind rfl fun node => ?_
  refine (Inlining.mapM (inherited_inlining node)).bind fun _ => ?_
  exact (Inlining.inherit node _).bind fun _ => typeMembers_inlining node members

mutual

theorem item_inlining (parent : NodeId) : ∀ form, Inlining parent (item parent form)
  | .variable origin name initializer form => by
    unfold item
    exact .add_bind rfl fun node => annotation_inlining node form
  | .function origin name form => by
    unfold item
    exact function_inlining parent origin .function name {} form
  | .classDecl origin name form => by
    unfold item
    exact classDecl_inlining parent origin name form
  | .interface origin name typeParams parents members => by
    unfold item
    exact interface_inlining parent origin name typeParams parents members
  | .typeAlias origin name typeParams form => by
    unfold item
    exact .add_bind rfl fun node => annotation_inlining node (some form)
  | .enum origin name members => by
    unfold item
    exact .discard_add rfl
  | .namespaceDecl origin name external forms => by
    unfold item
    exact .add_bind rfl fun node => items_inlining node forms
  | .exportAssignment origin => by
    unfold item
    exact .discard_add rfl

theorem items_inlining (parent : NodeId) : ∀ forms, Inlining parent (items parent forms)
  | [] => by
    unfold items
    exact .pure _
  | form :: forms => by
    unfold items
    exact (item_inlining parent form).bind fun _ => items_inlining parent forms

end

end Source.Placing

theorem Tree.inlined_ofFile (fileName : String) (moduleName : Option String) :
    (Tree.ofFile fileName moduleName).Inlined := by
  intro i type htype
  cases i with
  | zero => cases htype
  | succ i => cases htype

/-- In the tree of a module the inline types stand where they are written. -/
theorem Source.ModuleForm.inlined_toTree (fileName : String) (form : ModuleForm) :
    (form.toTree fileName).Inlined :=
  (Placing.items_inlining 0 form.items (Tree.ofFile fileName form.moduleName) Nat.zero_lt_one).inlined
    (Tree.inlined_ofFile fileName form.moduleName)

end DocBlock
