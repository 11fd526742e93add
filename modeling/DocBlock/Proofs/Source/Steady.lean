import DocBlock.Proofs.Source.Inlined

/-! # What every change of a tree keeps

A written form becomes nodes by three changes: a node is added, an annotation is set, heritage clauses
are set. A relation between trees that each of these changes keeps (`SteadyThroughout`) is kept by the
placing of a whole module (`items_carries`); of the heritage clauses it may be used that their inline
types stand below the class or interface. So a module has no file in it but itself (`oneFile_toTree`), it
keeps its path (`fileName_toTree`), and the inline types of its heritage clauses stand where they are
written (`heirs_toTree`). -/

namespace DocBlock

/-- A declaration as it is added to a tree: neither a file, nor annotated, nor with heritage clauses. -/
structure Decl.IsFresh (decl : Decl) : Prop where
  file : decl.isFile = false
  annotation : decl.annotation? = none
  heritage : decl.heritage = []

namespace Source.Placing

variable {α β : Type} {R : Tree → Tree → Prop}

/-- A relation that is kept when a node is added and when a node is annotated. -/
structure Steady (R : Tree → Tree → Prop) : Prop where
  refl : ∀ t, R t t
  trans : ∀ {t t' t''}, R t t' → R t' t'' → R t t''
  push : ∀ (t : Tree) (parent : NodeId) (decl : Decl) (comment : Option String) (excerpt : String),
    decl.IsFresh → R t (t.push parent decl comment excerpt)
  annotate : ∀ (t : Tree) (node : NodeId) (type : TypeExpr),
    R t (t.modifyDecl node (Decl.annotate type))

/-- A relation that is also kept when a node gets heritage clauses whose inline types stand below it. -/
structure SteadyThroughout (R : Tree → Tree → Prop) : Prop extends Steady R where
  inherit : ∀ (t : Tree) (node : NodeId) (heritage : List HeritageClause),
    (∀ clause ∈ heritage, t.Inlines node 0 (TypeExpr.allInlineNodes clause.types)) →
    R t (t.modifyDecl node (Decl.inherit heritage))

/-- A change that leads from every tree to one that is related to it. -/
def Carries (R : Tree → Tree → Prop) (m : Placing α) : Prop :=
  ∀ t : Tree, R t (m.run t).2

namespace Steady

variable {m : Placing α} {f : α → Placing β} {decl : Decl}

theorem pure (h : Steady R) (a : α) : Carries R (Pure.pure a : Placing α) :=
  fun t => h.refl t

theorem bind_at (h : Steady R) {t : Tree} (hm : R t (m.run t).2)
    (hf : R (m.run t).2 ((f (m.run t).1).run (m.run t).2).2) : R t ((m >>= f).run t).2 :=
  h.trans hm hf

theorem bind (h : Steady R) (hm : Carries R m) (hf : ∀ a, Carries R (f a)) : Carries R (m >>= f) :=
  fun t => h.bind_at (hm t) (hf (m.run t).1 (m.run t).2)

theorem add (h : Steady R) (parent : NodeId) (origin : Origin) (hdecl : decl.IsFresh) :
    Carries R (add parent origin decl) :=
  fun t => h.push t parent decl origin.doc origin.excerpt hdecl

/-- What follows the adding of a node may use that the node is there. -/
theorem add_bind_at (h : Steady R) {parent : NodeId} {origin : Origin} {f : NodeId → Placing β}
    (hdecl : decl.IsFresh) (hf : ∀ (t : Tree) (node : NodeId), node < t.size → R t ((f node).run t).2) :
    Carries R (Placing.add parent origin decl >>= f) := by
  intro t
  refine h.bind_at (h.add parent origin hdecl t) (hf _ t.size ?_)
  show t.size < (t.push parent decl origin.doc origin.excerpt).size
  rw [Tree.size_push]
  omega

theorem add_bind (h : Steady R) {parent : NodeId} {origin : Origin} {f : NodeId → Placing β}
    (hdecl : decl.IsFresh) (hf : ∀ node, Carries R (f node)) :
    Carries R (Placing.add parent origin decl >>= f) :=
  h.bind (h.add parent origin hdecl) hf

theorem annotate_node (h : Steady R) (node : NodeId) (type : TypeExpr) :
    Carries R (Placing.annotate node type) :=
  fun t => h.annotate t node type

theorem forM (h : Steady R) {xs : List α} {f : α → Placing Unit} (hf : ∀ x, Carries R (f x)) :
    Carries R (xs.forM f) := by
  induction xs with
  | nil => exact h.pure ()
  | cons x xs ih =>
    show Carries R (f x >>= fun _ => xs.forM f)
    exact h.bind (hf x) fun _ => ih

theorem mapM (h : Steady R) {xs : List α} {f : α → Placing β} (hf : ∀ x, Carries R (f x)) :
    Carries R (xs.mapM f) := by
  induction xs with
  | nil => exact h.pure []
  | cons x xs ih =>
    rw [List.mapM_cons]
    exact h.bind (hf x) fun _ => h.bind ih fun _ => h.pure _

end Steady

/-! ## Types, parameters and members -/

section

variable (h : Steady R)
include h

mutual

theorem type_carries (owner : NodeId) : ∀ form, Carries R (type owner form)
  | .word text => by
    unfold type
    exact h.pure _
  | .named name args => by
    unfold type
    exact h.bind (types_carries owner args) fun _ => h.pure _
  | .array element => by
    unfold type
    exact h.bind (type_carries owner element) fun _ => h.pure _
  | .union members => by
    unfold type
    exact h.bind (types_carries owner members) fun _ => h.pure _
  | .query text => by
    unfold type
    exact h.pure _
  | .other text => by
    unfold type
    exact h.pure _
  | .object origin members => by
    unfold type
    refine h.add_bind ⟨rfl, rfl, rfl⟩ fun node => ?_
    exact h.bind (typeMembers_carries node members) fun _ => h.pure _
  | .function origin typeParams parameters result => by
    unfold type
    refine h.add_bind ⟨rfl, rfl, rfl⟩ fun node => ?_
    refine h.bind (params_carries node 0 parameters) fun _ => ?_
    refine h.bind (type_carries node result) fun _ => ?_
    exact h.bind (h.annotate_node node _) fun _ => h.pure _

theorem types_carries (owner : NodeId) : ∀ forms, Carries R (types owner forms)
  | [] => by
    unfold types
    exact h.pure _
  | form :: forms => by
    unfold types
    refine h.bind (type_carries owner form) fun _ => ?_
    exact h.bind (types_carries owner forms) fun _ => h.pure _

theorem annotation_carries (node : NodeId) : ∀ form, Carries R ( annotation node form)
  | none => by
    unfold annotation
    exact h.pure _
  | some form => by
    unfold annotation
    exact h.bind (type_carries node form) fun _ => h.annotate_node node _

theorem param_carries (parent : NodeId) (index : Nat) : ∀ form, Carries R (param parent index form)
  | .mk origin shape form => by
    unfold param
    exact h.add_bind ⟨rfl, rfl, rfl⟩ fun node => annotation_carries node form

theorem params_carries (parent : NodeId) (index : Nat) :
    ∀ forms, Carries R (params parent index forms)
  | [] => by
    unfold params
    exact h.pure _
  | form :: forms => by
    unfold params
    exact h.bind (param_carries parent index form) fun _ => params_carries parent (index + 1) forms

theorem typeMember_carries (parent : NodeId) : ∀ form, Carries R (typeMember parent form)
  | .property origin name optional form => by
    unfold typeMember
    exact h.add_bind ⟨rfl, rfl, rfl⟩ fun node => annotation_carries node form
  | .callable origin role name typeParams parameters result => by
    unfold typeMember
    refine h.add_bind ⟨rfl, rfl, rfl⟩ fun node => ?_
    exact h.bind (params_carries node 0 parameters) fun _ => annotation_carries node result
  | .accessor origin name setter => by
    unfold typeMember
    exact h.add parent origin ⟨rfl, rfl, rfl⟩
  | .index => by
    unfold typeMember
    exact h.pure _

theorem typeMembers_carries (parent : NodeId) : ∀ forms, Carries R (typeMembers parent forms)
  | [] => by
    unfold typeMembers
    exact h.pure _
  | form :: forms => by
    unfold typeMembers
    exact h.bind (typeMember_carries parent form) fun _ => typeMembers_carries parent forms

end

theorem function_carries (parent : NodeId) (origin : Origin) (role : CallableRole) (name : String)
    (modifiers : Modifiers) (form : FunctionForm) :
    Carries R (function parent origin role name modifiers form) := by
  unfold function
  refine h.add_bind ⟨rfl, rfl, rfl⟩ fun node => ?_
  exact h.bind (params_carries h node 0 form.params) fun _ => annotation_carries h node form.result

theorem inherited_carries (owner : NodeId) (form : HeritageForm) : Carries R (inherited owner form) := by
  unfold inherited
  exact h.bind (types_carries h owner form.args) fun _ => h.pure _

theorem classMember_carries (parent : NodeId) (form : ClassMemberForm) :
    Carries R (classMember parent form) := by
  cases form with
  | constructor origin access parameters =>
    exact h.add_bind ⟨rfl, rfl, rfl⟩ fun node => params_carries h node 0 parameters
  | method origin name modifiers form =>
    exact function_carries h parent origin .method name modifiers form
  | accessor origin name setter => exact h.add parent origin ⟨rfl, rfl, rfl⟩
  | property origin decl form =>
    exact h.add_bind ⟨rfl, rfl, rfl⟩ fun node => annotation_carries h node form

end

/-! ## Declarations -/

/-- The inline types of inherited types stand below the declaration that inherits. -/
theorem mapM_inherited_gives (owner : NodeId) (forms : List HeritageForm) :
    GivesNodes owner TypeExpr.allInlineNodes (forms.mapM (inherited owner)) := by
  induction forms with
  | nil => exact fun t _ => ⟨.refl t, t.inlines_nil owner t.size⟩
  | cons form forms ih =>
    intro t ht
    rw [List.mapM_cons]
    obtain ⟨hfirst, hinlines⟩ := types_gives owner form.args t ht
    obtain ⟨hrest, hothers⟩ := ih _ (Nat.lt_of_lt_of_le ht hfirst.size_le)
    exact ⟨hfirst.trans hrest, hinlines.append hrest.toAgrees hothers hfirst.size_le⟩

theorem types_of_mem_clause {kind : HeritageKind} {types : List TypeExpr} {clause : HeritageClause}
    (h : clause ∈ if types.isEmpty then [] else [{ kind, types }]) : clause.types = types := by
  split at h
  · exact absurd h List.not_mem_nil
  · rw [List.mem_singleton.1 h]

section

variable (h : SteadyThroughout R)
include h

theorem classDecl_carries (parent : NodeId) (origin : Origin) (name : String) (form : ClassForm) :
    Carries R (classDecl parent origin name form) := by
  have hs := h.toSteady
  unfold classDecl
  refine hs.add_bind_at ⟨rfl, rfl, rfl⟩ fun t node hnode => ?_
  obtain ⟨hspreads, hextended⟩ := mapM_inherited_gives node form.parent.toList t hnode
  have hnode' := Nat.lt_of_lt_of_le hnode hspreads.size_le
  obtain ⟨hspreads', himplemented⟩ := mapM_inherited_gives node form.interfaces _ hnode'
  refine hs.bind_at (hs.mapM (inherited_carries hs node) t) ?_
  refine hs.bind_at (hs.mapM (inherited_carries hs node) _) ?_
  refine hs.bind_at (h.inherit _ node _ ?_) (hs.forM (classMember_carries hs node) _)
  intro clause hclause
  rcases List.mem_append.1 hclause with hclause | hclause
  · rw [types_of_mem_clause hclause]
    exact (hextended.agrees hspreads'.toAgrees).mono (Nat.zero_le _)
  · rw [types_of_mem_clause hclause]
    exact himplemented.mono (Nat.zero_le _)

theorem interface_carries (parent : NodeId) (origin : Origin) (name : String)
    (typeParams : List String) (parents : List HeritageForm) (members : List MemberForm) :
    Carries R (interface parent origin name typeParams parents members) := by
  have hs := h.toSteady
  unfold interface
  refine hs.add_bind_at ⟨rfl, rfl, rfl⟩ fun t node hnode => ?_
  obtain ⟨-, hextended⟩ := mapM_inherited_gives node parents t hnode
  refine hs.bind_at (hs.mapM (inherited_carries hs node) t) ?_
  refine hs.bind_at (h.inherit _ node _ ?_) (typeMembers_carries hs node members _)
  intro clause hclause
  rw [types_of_mem_clause hclause]
  exact hextended.mono (Nat.zero_le _)

mutual

theorem item_carries (parent : NodeId) : ∀ form, Carries R (item parent form)
  | .variable origin name initializer form => by
    unfold item
    exact h.add_bind ⟨rfl, rfl, rfl⟩ fun node => annotation_carries h.toSteady node form
  | .function origin name form => by
    unfold item
    exact function_carries h.toSteady parent origin .function name {} form
  | .classDecl origin name form => by
    unfold item
    exact classDecl_carries h parent origin name form
  | .interface origin name typeParams parents members => by
    unfold item
    exact interface_carries h parent origin name typeParams parents members
  | .typeAlias origin name typeParams form => by
    unfold item
    exact h.add_bind ⟨rfl, rfl, rfl⟩ fun node => annotation_carries h.toSteady node (some form)
  | .enum origin name members => by
    unfold item
    exact h.add parent origin ⟨rfl, rfl, rfl⟩
  | .namespaceDecl origin name external forms => by
    unfold item
    exact h.add_bind ⟨rfl, rfl, rfl⟩ fun node => items_carries node forms
  | .exportAssignment origin => by
    unfold item
    exact h.add parent origin ⟨rfl, rfl, rfl⟩

theorem items_carries (parent : NodeId) : ∀ forms, Carries R (items parent forms)
  | [] => by
    unfold items
    exact h.pure _
  | form :: forms => by
    unfold items
    exact h.bind (item_carries parent form) fun _ => items_carries parent forms

end

end

end Source.Placing

/-! ## Files -/

/-- A tree in which nothing but the root is a file. -/
def Tree.OneFile (t : Tree) : Prop :=
  ∀ i : Nat, 0 < i → i < t.size → (t.decl i).isFile = false

theorem Tree.OneFile.modifyDecl {t : Tree} (h : t.OneFile) (node : NodeId) {f : Decl → Decl}
    (hf : ∀ d, (f d).isFile = d.isFile) : (t.modifyDecl node f).OneFile := by
  intro i hi hsize
  rw [Tree.size_modifyDecl] at hsize
  rcases t.decl_modifyDecl node i f with hsame | hchanged
  · rw [hsame]
    exact h i hi hsize
  · rw [hchanged, hf]
    exact h i hi hsize

namespace Source

theorem oneFile_steady : Placing.SteadyThroughout fun t t' => t.OneFile → t'.OneFile := by
  refine ⟨⟨fun _ => id, fun h h' ht => h' (h ht), ?_, ?_⟩, ?_⟩
  · intro t parent decl comment excerpt hdecl ht i hi hsize
    rw [Tree.size_push] at hsize
    rw [Tree.decl, Tree.node_push]
    split
    · exact hdecl.file
    · exact ht i hi (by omega)
  · intro t node type ht
    refine ht.modifyDecl node ?_
    intro d
    cases d <;> rfl
  · intro t node heritage _ ht
    refine ht.modifyDecl node ?_
    intro d
    cases d <;> rfl

/-- The only file in the tree of a module is the module. -/
theorem ModuleForm.oneFile_toTree (fileName : String) (form : ModuleForm) :
    (form.toTree fileName).OneFile := by
  have hstart : (Tree.ofFile fileName form.moduleName).OneFile := by
    intro i hi hsize
    have : i < 1 := hsize
    omega
  exact Placing.items_carries oneFile_steady 0 form.items _ hstart

theorem fileName_steady : Placing.SteadyThroughout fun t t' => t'.fileName = t.fileName :=
  ⟨⟨fun _ => rfl, fun h h' => h'.trans h, fun _ _ _ _ _ _ => rfl, fun _ _ _ => rfl⟩,
    fun _ _ _ _ => rfl⟩

theorem ModuleForm.fileName_toTree (fileName : String) (form : ModuleForm) :
    (form.toTree fileName).fileName = fileName :=
  Placing.items_carries fileName_steady 0 form.items (Tree.ofFile fileName form.moduleName)

end Source

/-! ## Heritage clauses -/

/-- A tree in which the inline types of heritage clauses stand where they are written. -/
def Tree.Heirs (t : Tree) : Prop :=
  ∀ i : Nat, ∀ clause ∈ (t.decl i).heritage, t.Inlines i 0 (TypeExpr.allInlineNodes clause.types)

namespace Source

theorem heirs_steady :
    Placing.SteadyThroughout fun t t' => t.Agrees t' ∧ (t.Heirs → t'.Heirs) := by
  refine ⟨⟨fun t => ⟨.refl t, id⟩, fun h h' => ⟨h.1.trans h'.1, fun ht => h'.2 (h.2 ht)⟩, ?_, ?_⟩, ?_⟩
  · intro t parent decl comment excerpt hdecl
    have hagrees := t.agrees_push parent decl comment excerpt
    refine ⟨hagrees, fun ht i clause hclause => ?_⟩
    rw [Tree.decl, Tree.node_push] at hclause
    split at hclause
    · rw [hdecl.heritage] at hclause
      exact absurd hclause List.not_mem_nil
    · exact (ht i clause hclause).agrees hagrees
  · intro t node type
    have hagrees := t.agrees_annotate node type
    refine ⟨hagrees, fun ht i clause hclause => ?_⟩
    have hsame : ((t.modifyDecl node (Decl.annotate type)).decl i).heritage = (t.decl i).heritage := by
      rcases t.decl_modifyDecl node i (Decl.annotate type) with h | h
      · rw [h]
      · rw [h]
        cases t.decl i <;> rfl
    rw [hsame] at hclause
    exact (ht i clause hclause).agrees hagrees
  · intro t node heritage hheritage
    have hagrees := t.agrees_inherit node heritage
    refine ⟨hagrees, fun ht i clause hclause => ?_⟩
    by_cases hi : i = node
    · subst hi
      rcases t.decl_modifyDecl i i (Decl.inherit heritage) with h | h
      · rw [h] at hclause
        exact (ht i clause hclause).agrees hagrees
      · rw [h] at hclause
        have hmem : clause ∈ heritage := by
          cases hdecl : t.decl i <;> rw [hdecl] at hclause <;>
            first
            | exact hclause
            | exact absurd hclause List.not_mem_nil
        exact (hheritage clause hmem).agrees hagrees
    · rw [Tree.decl_modifyDecl_of_ne hi] at hclause
      exact (ht i clause hclause).agrees hagrees

/-- In the tree of a module the inline types of heritage clauses stand where they are written. -/
theorem ModuleForm.heirs_toTree (fileName : String) (form : ModuleForm) :
    (form.toTree fileName).Heirs := by
  have hstart : (Tree.ofFile fileName form.moduleName).Heirs := by
    intro i clause hclause
    cases i with
    | zero => exact absurd hclause List.not_mem_nil
    | succ i => exact absurd hclause List.not_mem_nil
  exact (Placing.items_carries heirs_steady 0 form.items _).2 hstart

end Source

end DocBlock
