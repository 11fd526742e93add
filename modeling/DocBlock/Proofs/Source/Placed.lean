import DocBlock.Proofs.Comment.ParamNames
import DocBlock.Proofs.Decl.Growth
import DocBlock.Source.Placing

/-! # Trees that written forms become

The tree of a module grows from the tree of an empty file: nodes are added behind their parents, and
declarations get annotations and heritage clauses later. So the tree is rooted, and the names of its
parameters are words or stand for a position; either way they hold no mark that comments decorate the
name of a parameter with (`placed_toTree`). -/

namespace DocBlock

open DocBlock.Source (isNameMark)

variable {t : Tree} {i parent : Nat} {decl : Decl}

/-! ## Nodes of a changed tree -/

namespace Tree

theorem comment_modifyDecl (t : Tree) (i j : Nat) (f : Decl → Decl) :
    ((t.modifyDecl i f).node j).comment = (t.node j).comment := by
  simp only [node, modifyDecl, Array.getD_eq_getD_getElem?, Array.getElem?_modify]
  split
  · cases t.nodes[j]? <;> rfl
  · rfl

theorem decl_modifyDecl (t : Tree) (i j : Nat) (f : Decl → Decl) :
    (t.modifyDecl i f).decl j = t.decl j ∨ (t.modifyDecl i f).decl j = f (t.decl j) := by
  simp only [Tree.decl, node, modifyDecl, Array.getD_eq_getD_getElem?, Array.getElem?_modify]
  split
  · cases t.nodes[j]? with
    | none => exact .inl rfl
    | some node => exact .inr rfl
  · exact .inl rfl

/-! ## Growing -/

/-- A rooted tree whose parameters have plain names. -/
structure Placed (t : Tree) : Prop extends t.Rooted where
  plain : ∀ i p, t.decl i = .parameter p → PlainName p.name

/-- A tree that has become another one by adding nodes and facts about them. -/
structure Grows (t t' : Tree) : Prop where
  size_le : t.size ≤ t'.size
  placed : t.Placed → t'.Placed

theorem Grows.refl (t : Tree) : t.Grows t :=
  ⟨Nat.le_refl _, id⟩

theorem Grows.trans {t₁ t₂ t₃ : Tree} (h : t₁.Grows t₂) (h' : t₂.Grows t₃) : t₁.Grows t₃ :=
  ⟨Nat.le_trans h.size_le h'.size_le, fun ht => h'.placed (h.placed ht)⟩

theorem grows_push (hparent : parent < t.size) (hplain : ∀ p, decl = .parameter p → PlainName p.name)
    (comment : Option String) (excerpt : String) : t.Grows (t.push parent decl comment excerpt) where
  size_le := by
    rw [size_push]
    omega
  placed h := by
    refine ⟨h.toRooted.push hparent decl comment excerpt, ?_⟩
    intro i p hp
    rw [Tree.decl, node_push] at hp
    split at hp
    · exact hplain p hp
    · exact h.plain i p hp

/-- What is found out about a declaration later does not change the names of parameters. -/
theorem grows_modifyDecl {f : Decl → Decl}
    (hf : ∀ d p, f d = .parameter p → ∃ q, d = .parameter q ∧ q.name = p.name) (i : Nat) :
    t.Grows (t.modifyDecl i f) where
  size_le := Nat.le_of_eq (size_modifyDecl t i f).symm
  placed h := by
    refine ⟨h.toRooted.modifyDecl i f, ?_⟩
    intro j p hp
    rcases decl_modifyDecl t i j f with hsame | hchanged
    · rw [hsame] at hp
      exact h.plain j p hp
    · rw [hchanged] at hp
      obtain ⟨q, hq, hname⟩ := hf _ p hp
      rw [← hname]
      exact h.plain j q hq

end Tree

namespace Source.Placing

open DocBlock.Tree (Grows)

variable {α β : Type} {n : Nat}

/-! ## Changes below a node -/

/-- A change that lets every tree grow in which node `n` exists. -/
def Below (n : Nat) (m : Placing α) : Prop :=
  ∀ t : Tree, n < t.size → t.Grows (m.run t).2

namespace Below

theorem pure (a : α) : Below n (Pure.pure a : Placing α) := fun t _ => Grows.refl t

theorem bind {m : Placing α} {f : α → Placing β} (hm : Below n m) (hf : ∀ a, Below n (f a)) :
    Below n (m >>= f) := by
  intro t ht
  have hfirst := hm t ht
  have hsecond := hf (m.run t).1 (m.run t).2 (Nat.lt_of_lt_of_le ht hfirst.size_le)
  exact hfirst.trans hsecond

/-- What follows the adding of a node may use that node. -/
theorem add_bind {origin : Origin} {f : NodeId → Placing β}
    (hplain : ∀ p, decl = .parameter p → PlainName p.name) (hf : ∀ node, Below node (f node)) :
    Below n (add n origin decl >>= f) := by
  intro t ht
  have hpush := Tree.grows_push ht hplain origin.doc origin.excerpt
  have hsize : t.size < (t.push n decl origin.doc origin.excerpt).size := by
    rw [Tree.size_push]
    omega
  exact hpush.trans (hf t.size _ hsize)

theorem discard_add {origin : Origin} (hplain : ∀ p, decl = .parameter p → PlainName p.name) :
    Below n (discard (add n origin decl)) := by
  intro t ht
  exact Tree.grows_push ht hplain origin.doc origin.excerpt

theorem forM {xs : List α} {f : α → Placing Unit} (hf : ∀ x, Below n (f x)) :
    Below n (xs.forM f) := by
  induction xs with
  | nil => exact Below.pure ()
  | cons x xs ih =>
    show Below n (f x >>= fun _ => xs.forM f)
    exact (hf x).bind fun _ => ih

theorem mapM {xs : List α} {f : α → Placing β} (hf : ∀ x, Below n (f x)) :
    Below n (xs.mapM f) := by
  induction xs with
  | nil => exact Below.pure []
  | cons x xs ih =>
    rw [List.mapM_cons]
    exact (hf x).bind fun _ => ih.bind fun _ => Below.pure _

theorem annotate (node : NodeId) (type : TypeExpr) : Below n (Placing.annotate node type) := by
  intro t _
  refine Tree.grows_modifyDecl ?_ node
  intro d p hp
  cases d with
  | parameter q =>
    obtain rfl := Decl.parameter.inj hp
    exact ⟨q, rfl, rfl⟩
  | _ => cases hp

theorem inherit (node : NodeId) (heritage : List HeritageClause) :
    Below n (Placing.inherit node heritage) := by
  intro t _
  refine Tree.grows_modifyDecl ?_ node
  intro d p hp
  cases d with
  | parameter q =>
    obtain rfl := Decl.parameter.inj hp
    exact ⟨q, rfl, rfl⟩
  | _ => cases hp

end Below

/-! ## Types, parameters and members -/

theorem plainName_placeholder (index : Nat) : PlainName (placeholder index) := by
  intro c hc
  have hchars : (placeholder index).toList = '_' :: '_' :: Nat.toDigits 10 index := by
    simp [placeholder, String.toList_append]
  rw [hchars, List.mem_cons, List.mem_cons] at hc
  rcases hc with rfl | rfl | hc
  · rfl
  · rfl
  · have hdigit := Nat.isDigit_of_mem_toDigits (by decide) (by decide) hc
    rw [← Bool.not_eq_true]
    intro hmark
    simp only [isNameMark, Bool.or_eq_true, beq_iff_eq] at hmark
    rcases hmark with ((rfl | rfl) | rfl) | rfl <;> exact absurd hdigit (by decide)

mutual

theorem type_below (owner : NodeId) : ∀ form, Below owner (type owner form)
  | .word text => by
    unfold type
    exact .pure _
  | .named name args => by
    unfold type
    exact (types_below owner args).bind fun _ => .pure _
  | .array element => by
    unfold type
    exact (type_below owner element).bind fun _ => .pure _
  | .union members => by
    unfold type
    exact (types_below owner members).bind fun _ => .pure _
  | .query text => by
    unfold type
    exact .pure _
  | .other text => by
    unfold type
    exact .pure _
  | .object origin members => by
    unfold type
    refine Below.add_bind (by simp) fun node => ?_
    exact (typeMembers_below node members).bind fun _ => .pure _
  | .function origin typeParams parameters result => by
    unfold type
    refine Below.add_bind (by simp) fun node => ?_
    refine (params_below node 0 parameters).bind fun _ => ?_
    refine (type_below node result).bind fun _ => ?_
    exact (Below.annotate node _).bind fun _ => .pure _

theorem types_below (owner : NodeId) : ∀ forms, Below owner (types owner forms)
  | [] => by
    unfold types
    exact .pure _
  | form :: forms => by
    unfold types
    exact (type_below owner form).bind fun _ => (types_below owner forms).bind fun _ => .pure _

theorem annotation_below (node : NodeId) : ∀ form, Below node ( annotation node form)
  | none => by
    unfold annotation
    exact .pure _
  | some form => by
    unfold annotation
    exact (type_below node form).bind fun _ => .annotate node _

theorem param_below (parent : NodeId) (index : Nat) : ∀ form, Below parent (param parent index form)
  | .mk origin shape form => by
    unfold param
    refine Below.add_bind ?_ fun node => annotation_below node form
    intro p hp
    obtain rfl := Decl.parameter.inj hp
    show PlainName (shape.name.elim (placeholder index) Word.text)
    cases shape.name with
    | none => exact plainName_placeholder index
    | some word => exact word.plain

theorem params_below (parent : NodeId) (index : Nat) :
    ∀ forms, Below parent (params parent index forms)
  | [] => by
    unfold params
    exact .pure _
  | form :: forms => by
    unfold params
    exact (param_below parent index form).bind fun _ => params_below parent (index + 1) forms

theorem typeMember_below (parent : NodeId) : ∀ form, Below parent (typeMember parent form)
  | .property origin name optional form => by
    unfold typeMember
    exact Below.add_bind (by simp) fun node => annotation_below node form
  | .callable origin role name typeParams parameters result => by
    unfold typeMember
    refine Below.add_bind (by simp) fun node => ?_
    exact (params_below node 0 parameters).bind fun _ => annotation_below node result
  | .accessor origin name setter => by
    unfold typeMember
    exact .discard_add (by simp)
  | .index => by
    unfold typeMember
    exact .pure _

theorem typeMembers_below (parent : NodeId) : ∀ forms, Below parent (typeMembers parent forms)
  | [] => by
    unfold typeMembers
    exact .pure _
  | form :: forms => by
    unfold typeMembers
    exact (typeMember_below parent form).bind fun _ => typeMembers_below parent forms

end

/-! ## Declarations -/

theorem function_below (parent : NodeId) (origin : Origin) (role : CallableRole) (name : String)
    (modifiers : Modifiers) (form : FunctionForm) :
    Below parent (function parent origin role name modifiers form) := by
  unfold function
  refine Below.add_bind (by simp) fun node => ?_
  exact (params_below node 0 form.params).bind fun _ => annotation_below node form.result

theorem inherited_below (owner : NodeId) (form : HeritageForm) :
    Below owner (inherited owner form) := by
  unfold inherited
  exact (types_below owner form.args).bind fun _ => .pure _

theorem classMember_below (parent : NodeId) (form : ClassMemberForm) :
    Below parent (classMember parent form) := by
  cases form with
  | constructor origin access parameters =>
    exact Below.add_bind (by simp) fun node => params_below node 0 parameters
  | method origin name modifiers form => exact function_below parent origin .method name modifiers form
  | accessor origin name setter => exact .discard_add (by simp)
  | property origin decl form => exact Below.add_bind (by simp) fun node => annotation_below node form

theorem classDecl_below (parent : NodeId) (origin : Origin) (name : String) (form : ClassForm) :
    Below parent (classDecl parent origin name form) := by
  unfold classDecl
  refine Below.add_bind (by simp) fun node => ?_
  refine (Below.mapM (inherited_below node)).bind fun _ => ?_
  refine (Below.mapM (inherited_below node)).bind fun _ => ?_
  exact (Below.inherit node _).bind fun _ => .forM (classMember_below node)

theorem interface_below (parent : NodeId) (origin : Origin) (name : String) (typeParams : List String)
    (parents : List HeritageForm) (members : List MemberForm) :
    Below parent (interface parent origin name typeParams parents members) := by
  unfold interface
  refine Below.add_bind (by simp) fun node => ?_
  refine (Below.mapM (inherited_below node)).bind fun _ => ?_
  exact (Below.inherit node _).bind fun _ => typeMembers_below node members

mutual

theorem item_below (parent : NodeId) : ∀ form, Below parent (item parent form)
  | .variable origin name initializer form => by
    unfold item
    exact Below.add_bind (by simp) fun node => annotation_below node form
  | .function origin name form => by
    unfold item
    exact function_below parent origin .function name {} form
  | .classDecl origin name form => by
    unfold item
    exact classDecl_below parent origin name form
  | .interface origin name typeParams parents members => by
    unfold item
    exact interface_below parent origin name typeParams parents members
  | .typeAlias origin name typeParams form => by
    unfold item
    exact Below.add_bind (by simp) fun node => annotation_below node (some form)
  | .enum origin name members => by
    unfold item
    exact .discard_add (by simp)
  | .namespaceDecl origin name external forms => by
    unfold item
    exact Below.add_bind (by simp) fun node => items_below node forms
  | .exportAssignment origin => by
    unfold item
    exact .discard_add (by simp)

theorem items_below (parent : NodeId) : ∀ forms, Below parent (items parent forms)
  | [] => by
    unfold items
    exact .pure _
  | form :: forms => by
    unfold items
    exact (item_below parent form).bind fun _ => items_below parent forms

end

end Source.Placing

theorem Tree.placed_ofFile (fileName : String) (moduleName : Option String) :
    (Tree.ofFile fileName moduleName).Placed := by
  refine ⟨⟨Nat.zero_lt_one, rfl, ?_⟩, ?_⟩
  · intro i hi hsize
    have : i < 1 := hsize
    omega
  · intro i p hp
    cases i with
    | zero => cases hp
    | succ i => cases hp

/-- The tree of a module is rooted, and its parameters have plain names. -/
theorem Source.ModuleForm.placed_toTree (fileName : String) (form : ModuleForm) :
    (form.toTree fileName).Placed :=
  (Placing.items_below 0 form.items (Tree.ofFile fileName form.moduleName) Nat.zero_lt_one).placed
    (Tree.placed_ofFile fileName form.moduleName)

end DocBlock
