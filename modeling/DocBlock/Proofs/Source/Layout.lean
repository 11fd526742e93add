import DocBlock.Proofs.Decl.Layout
import DocBlock.Proofs.Source.Steady

/-! # Modules are laid out in the order of the document

Placing a written form adds laid out nodes behind those that are there (`Lays`). A declaration is added
bare; while the nodes below it are added it is filled (`Filling`), and it ends up naming just the inline
types that were added among its children (`Filled`), because its annotation and heritage clauses are set
from the types that were read for it. So in the tree of a module the pre-order is the order of the nodes,
and inline types and the places where they are named belong to each other one to one
(`linked_toTree`). -/

namespace DocBlock

namespace Decl

variable {decl : Decl}

theorem inlineRefs_of_isFresh (h : decl.IsFresh) : decl.inlineRefs = [] := by
  rw [inlineRefs, writtenTypes, h.annotation, h.heritage]
  rfl

theorem inlineRef?_annotate (type : TypeExpr) (node : Nat) :
    (decl.annotate type).inlineRef? node = decl.inlineRef? node := by
  rcases decl with _ | _ | ⟨role, _⟩ | _ | _ | _ | _ | _ | _ | _ | _ | _
  case callable => cases role <;> rfl
  all_goals rfl

theorem inlineRef?_inherit (heritage : List HeritageClause) (node : Nat) :
    (decl.inherit heritage).inlineRef? node = decl.inlineRef? node := by
  cases decl <;> rfl

/-- What a fresh declaration names once it is annotated. -/
theorem inlineRefs_annotate (h : decl.IsFresh) {type : TypeExpr}
    (htype : Decl.annotation? (decl.annotate type) = some type) :
    (decl.annotate type).inlineRefs = type.inlineRefs := by
  have hheritage : (decl.annotate type).heritage = [] := by
    rw [← h.heritage]
    cases decl <;> rfl
  rw [inlineRefs, writtenTypes, htype, hheritage]
  exact List.append_nil _

/-- What a fresh declaration names once it has heritage clauses. -/
theorem inlineRefs_inherit (h : decl.IsFresh) {heritage : List HeritageClause}
    (hheritage : (decl.inherit heritage).heritage = heritage) :
    (decl.inherit heritage).inlineRefs = TypeExpr.allInlineRefs (heritage.flatMap (·.types)) := by
  have htype : Decl.annotation? (decl.inherit heritage) = none := by
    rw [← h.annotation]
    cases decl <;> rfl
  rw [inlineRefs, writtenTypes, htype, hheritage]
  rfl

end Decl

namespace Source.Placing

variable {α β γ : Type} {owner : Nat} {t : Tree} {pre : List Node} {node : Node} {decl : Decl}
  {refs : List InlineRef}

/-! ## Adding laid out nodes -/

/-- A change that adds laid out nodes below `owner`; what it gives says which inline types are among the
children of `owner`. -/
def Lays (owner : Nat) (refs : α → List InlineRef) (m : Placing α) : Prop :=
  ∀ t : Tree, ∃ nodes, (m.run t).2.nodes.toList = t.nodes.toList ++ nodes ∧
    Laid owner t.size nodes (refs (m.run t).1)

/-- A change that adds laid out nodes below `owner`, but no inline types among its children. -/
abbrev Adds (owner : Nat) (m : Placing α) : Prop :=
  Lays owner (fun _ => []) m

namespace Lays

variable {m : Placing α} {n : Placing β} {f : α → List InlineRef} {g : β → List InlineRef}

theorem pure {a : α} (h : f a = []) : Lays owner f (Pure.pure a : Placing α) := by
  intro t
  refine ⟨[], (List.append_nil _).symm, ?_⟩
  show Laid owner t.size [] (f a)
  rw [h]
  exact .nil owner t.size

/-- What is given may be put into another shape that names the same inline types. -/
theorem map (hm : Lays owner f m) {shape : α → β} (h : ∀ a, g (shape a) = f a) :
    Lays owner g (m >>= fun a => Pure.pure (shape a)) := by
  intro t
  obtain ⟨nodes, hnodes, hlaid⟩ := hm t
  refine ⟨nodes, hnodes, ?_⟩
  show Laid owner t.size nodes (g (shape (m.run t).1))
  rw [h]
  exact hlaid

/-- One change after the other names the inline types of both. -/
theorem both (hm : Lays owner f m) (hn : Lays owner g n) {shape : α → β → γ}
    {k : γ → List InlineRef} (h : ∀ a b, k (shape a b) = f a ++ g b) :
    Lays owner k (m >>= fun a => n >>= fun b => Pure.pure (shape a b)) := by
  intro t
  obtain ⟨nodes, hnodes, hlaid⟩ := hm t
  obtain ⟨nodes', hnodes', hlaid'⟩ := hn (m.run t).2
  refine ⟨nodes ++ nodes', ?_, ?_⟩
  · show (n.run (m.run t).2).2.nodes.toList = _
    rw [hnodes', hnodes, List.append_assoc]
  · have hsize : (m.run t).2.size = t.size + nodes.length := by
      rw [Tree.size, ← Array.length_toList, hnodes, List.length_append, Array.length_toList, Tree.size]
    show Laid owner t.size _ (k (shape (m.run t).1 (n.run (m.run t).2).1))
    rw [h]
    rw [hsize] at hlaid'
    exact hlaid.append hlaid'

theorem seq {m : Placing Unit} {n : Placing Unit} (hm : Adds owner m) (hn : Adds owner n) :
    Adds owner (m >>= fun _ => n) :=
  both hm hn fun _ _ => rfl

theorem forM {xs : List α} {step : α → Placing Unit} (h : ∀ x, Adds owner (step x)) :
    Adds owner (xs.forM step) := by
  induction xs with
  | nil => exact .pure rfl
  | cons x xs ih =>
    show Adds owner (step x >>= fun _ => xs.forM step)
    exact (h x).seq ih

end Lays

/-! ## Filling a node -/

/-- A tree in which the node behind `pre` is the last one at its depth: laid out nodes stand below it,
with the inline types `refs` among its children. -/
def Filling (t : Tree) (pre : List Node) (node : Node) (refs : List InlineRef) : Prop :=
  ∃ below, t.nodes.toList = pre ++ node :: below ∧ Laid pre.length (pre.length + 1) below refs

/-- A tree in which the node behind `pre` is what `node` has become: it names just the inline types among
its children. -/
def Filled (t : Tree) (pre : List Node) (node : Node) : Prop :=
  ∃ node', Filling t pre node' node'.decl.inlineRefs ∧ node'.parent = node.parent ∧
    ∀ i, node'.decl.inlineRef? i = node.decl.inlineRef? i

theorem modify_length_append (pre : List α) (a : α) (post : List α) (f : α → α) :
    (pre ++ a :: post).modify pre.length f = pre ++ f a :: post := by
  induction pre with
  | nil => rfl
  | cons b pre ih => exact congrArg (b :: ·) ih

namespace Filling

theorem filled (h : Filling t pre node []) (hfresh : node.decl.IsFresh) : Filled t pre node := by
  refine ⟨node, ?_, rfl, fun _ => rfl⟩
  rw [Decl.inlineRefs_of_isFresh hfresh]
  exact h

theorem lays {m : Placing α} {f : α → List InlineRef} (h : Filling t pre node refs)
    (hm : Lays pre.length f m) : Filling (m.run t).2 pre node (refs ++ f (m.run t).1) := by
  obtain ⟨below, hbelow, hlaid⟩ := h
  obtain ⟨nodes, hnodes, hlaid'⟩ := hm t
  have hsize : t.size = pre.length + 1 + below.length := by
    rw [Tree.size, ← Array.length_toList, hbelow, List.length_append, List.length_cons]
    omega
  rw [hsize] at hlaid'
  refine ⟨below ++ nodes, ?_, hlaid.append hlaid'⟩
  rw [hnodes, hbelow, List.append_assoc, List.cons_append]

theorem adds {m : Placing α} (h : Filling t pre node refs) (hm : Adds pre.length m) :
    Filling (m.run t).2 pre node refs := by
  have hlays := h.lays hm
  rwa [List.append_nil] at hlays

theorem modifyDecl (h : Filling t pre node refs) (f : Decl → Decl) :
    Filling (t.modifyDecl pre.length f) pre { node with decl := f node.decl } refs := by
  obtain ⟨below, hbelow, hlaid⟩ := h
  refine ⟨below, ?_, hlaid⟩
  rw [Tree.modifyDecl, Array.toList_modify, hbelow, modify_length_append]

/-- The annotation is set to the type that was read for the node. -/
theorem annotate {m : Placing TypeExpr} (h : Filling t pre node [])
    (hm : Lays pre.length TypeExpr.inlineRefs m) (hfresh : node.decl.IsFresh)
    (htakes : ∀ type, Decl.annotation? (node.decl.annotate type) = some type) :
    Filled ((m >>= Placing.annotate pre.length).run t).2 pre node := by
  have hset := (h.lays hm).modifyDecl (Decl.annotate (m.run t).1)
  rw [List.nil_append] at hset
  refine ⟨{ node with decl := node.decl.annotate (m.run t).1 }, ?_, rfl, Decl.inlineRef?_annotate _⟩
  rw [Decl.inlineRefs_annotate hfresh (htakes _)]
  exact hset

/-- The heritage clauses are set to the types that were read for the node. -/
theorem inherit {m : Placing α} {heritage : List HeritageClause} (h : Filling t pre node refs)
    (hrefs : TypeExpr.allInlineRefs (heritage.flatMap (·.types)) = refs) (hm : Adds pre.length m)
    (hfresh : node.decl.IsFresh) (htakes : (node.decl.inherit heritage).heritage = heritage) :
    Filled ((Placing.inherit pre.length heritage >>= fun _ => m).run t).2 pre node := by
  have hmembers := (h.modifyDecl (Decl.inherit heritage)).adds hm
  refine ⟨{ node with decl := node.decl.inherit heritage }, ?_, rfl, Decl.inlineRef?_inherit heritage⟩
  rw [Decl.inlineRefs_inherit hfresh htakes, hrefs]
  exact hmembers

end Filling

/-- A node is added and filled. -/
theorem Lays.add_bind {origin : Origin} {f : NodeId → Placing α} {g : α → List InlineRef}
    (hf : ∀ (t : Tree) (pre : List Node) (node : Node), node.decl = decl → Filling t pre node [] →
      Filled ((f pre.length).run t).2 pre node ∧
        g ((f pre.length).run t).1 = (decl.inlineRef? pre.length).toList) :
    Lays owner g (add owner origin decl >>= f) := by
  intro t
  let node : Node := { parent := some owner, decl, comment := origin.doc, excerpt := origin.excerpt }
  have hlength : t.nodes.toList.length = t.size := Array.length_toList
  have hadded : Filling (t.push owner decl origin.doc origin.excerpt) t.nodes.toList node [] :=
    ⟨[], Array.toList_push, .nil _ _⟩
  obtain ⟨⟨node', ⟨below, hbelow, hlaid⟩, hparent, hself⟩, hgives⟩ :=
    hf (t.push owner decl origin.doc origin.excerpt) t.nodes.toList node rfl hadded
  rw [hlength] at hbelow hlaid hgives
  refine ⟨node' :: below, hbelow, ?_⟩
  have hall := Laid.cons hparent hlaid (.nil owner (t.size + 1 + below.length))
  rw [List.append_nil, List.append_nil, hself] at hall
  show Laid owner t.size (node' :: below) (g ((f t.size).run _).1)
  rw [hgives]
  exact hall

/-- A declaration that is no inline type. -/
theorem Adds.add_bind {origin : Origin} {f : NodeId → Placing α}
    (hplain : ∀ i, decl.inlineRef? i = none)
    (hf : ∀ (t : Tree) (pre : List Node) (node : Node), node.decl = decl → Filling t pre node [] →
      Filled ((f pre.length).run t).2 pre node) :
    Adds owner (add owner origin decl >>= f) := by
  refine Lays.add_bind fun t pre node hnode hfilling => ⟨hf t pre node hnode hfilling, ?_⟩
  rw [hplain]
  rfl

/-- A declaration with no annotation and no heritage clauses, whatever stands below it. -/
theorem Adds.add_adds {origin : Origin} {f : NodeId → Placing α} (hdecl : decl.IsFresh)
    (hplain : ∀ i, decl.inlineRef? i = none) (hf : ∀ node, Adds node (f node)) :
    Adds owner (add owner origin decl >>= f) := by
  refine Adds.add_bind hplain fun t pre node hnode hfilling => ?_
  exact (hfilling.adds (hf pre.length)).filled (hnode ▸ hdecl)

theorem Adds.discard_add {origin : Origin} (hdecl : decl.IsFresh)
    (hplain : ∀ i, decl.inlineRef? i = none) : Adds owner (discard (add owner origin decl)) :=
  Adds.add_adds hdecl hplain fun _ => Lays.pure rfl

/-! ## Types, parameters and members -/

mutual

theorem type_lays (owner : Nat) : ∀ form, Lays owner TypeExpr.inlineRefs (type owner form)
  | .word text => by
    unfold type
    exact .pure rfl
  | .named name args => by
    unfold type
    exact (types_lays owner args).map fun _ => rfl
  | .array element => by
    unfold type
    exact (type_lays owner element).map fun _ => rfl
  | .union members => by
    unfold type
    exact (types_lays owner members).map fun _ => rfl
  | .query text => by
    unfold type
    exact .pure rfl
  | .other text => by
    unfold type
    exact .pure rfl
  | .object origin members => by
    unfold type
    refine Lays.add_bind fun t pre node hnode hfilling => ⟨?_, rfl⟩
    exact (hfilling.adds (typeMembers_adds pre.length members)).filled (hnode ▸ ⟨rfl, rfl, rfl⟩)
  | .function origin typeParams parameters result => by
    unfold type
    refine Lays.add_bind fun t pre node hnode hfilling => ⟨?_, rfl⟩
    have hparams := hfilling.adds (params_adds pre.length 0 parameters)
    exact hparams.annotate (type_lays pre.length result) (hnode ▸ ⟨rfl, rfl, rfl⟩) (hnode ▸ fun _ => rfl)

theorem types_lays (owner : Nat) : ∀ forms, Lays owner TypeExpr.allInlineRefs (types owner forms)
  | [] => by
    unfold types
    exact .pure rfl
  | form :: forms => by
    unfold types
    exact (type_lays owner form).both (types_lays owner forms) fun _ _ => rfl

theorem annotation_fills : ∀ (form : Option TypeForm) {t : Tree} {pre : List Node} {node : Node},
    Filling t pre node [] → node.decl.IsFresh →
    (∀ type, Decl.annotation? (node.decl.annotate type) = some type) →
    Filled (( annotation pre.length form).run t).2 pre node
  | none, _, _, _, h, hfresh, _ => by
    unfold annotation
    exact h.filled hfresh
  | some form, _, pre, _, h, hfresh, htakes => by
    unfold annotation
    exact h.annotate (type_lays pre.length form) hfresh htakes

theorem param_adds (parent : Nat) (index : Nat) : ∀ form, Adds parent (param parent index form)
  | .mk origin shape form => by
    unfold param
    refine Adds.add_bind (fun _ => rfl) fun t pre node hnode hfilling => ?_
    exact annotation_fills form hfilling (hnode ▸ ⟨rfl, rfl, rfl⟩) (hnode ▸ fun _ => rfl)

theorem params_adds (parent : Nat) (index : Nat) : ∀ forms, Adds parent (params parent index forms)
  | [] => by
    unfold params
    exact .pure rfl
  | form :: forms => by
    unfold params
    exact (param_adds parent index form).seq (params_adds parent (index + 1) forms)

theorem typeMember_adds (parent : Nat) : ∀ form, Adds parent (typeMember parent form)
  | .property origin name optional form => by
    unfold typeMember
    refine Adds.add_bind (fun _ => rfl) fun t pre node hnode hfilling => ?_
    exact annotation_fills form hfilling (hnode ▸ ⟨rfl, rfl, rfl⟩) (hnode ▸ fun _ => rfl)
  | .callable origin role name typeParams parameters result => by
    unfold typeMember
    have hplain : ∀ i, (Decl.callable role.callableRole { name, typeParams }).inlineRef? i = none := by
      cases role <;> exact fun _ => rfl
    refine Adds.add_bind hplain fun t pre node hnode hfilling => ?_
    exact annotation_fills result (hfilling.adds (params_adds pre.length 0 parameters))
      (hnode ▸ ⟨rfl, rfl, rfl⟩) (hnode ▸ fun _ => rfl)
  | .accessor origin name setter => by
    unfold typeMember
    exact .discard_add ⟨rfl, rfl, rfl⟩ fun _ => rfl
  | .index => by
    unfold typeMember
    exact .pure rfl

theorem typeMembers_adds (parent : Nat) : ∀ forms, Adds parent (typeMembers parent forms)
  | [] => by
    unfold typeMembers
    exact .pure rfl
  | form :: forms => by
    unfold typeMembers
    exact (typeMember_adds parent form).seq (typeMembers_adds parent forms)

end

/-! ## Declarations -/

theorem function_adds (parent : Nat) (origin : Origin) {role : CallableRole}
    (hrole : role ≠ .functionType) (name : String) (modifiers : Modifiers) (form : FunctionForm) :
    Adds parent (function parent origin role name modifiers form) := by
  unfold function
  refine Adds.add_bind ?_ fun t pre node hnode hfilling => ?_
  · cases role with
    | functionType => exact absurd rfl hrole
    | _ => exact fun _ => rfl
  · exact annotation_fills form.result (hfilling.adds (params_adds pre.length 0 form.params))
      (hnode ▸ ⟨rfl, rfl, rfl⟩) (hnode ▸ fun _ => rfl)

theorem inherited_lays (owner : Nat) (form : HeritageForm) :
    Lays owner TypeExpr.inlineRefs (inherited owner form) := by
  unfold inherited
  exact (types_lays owner form.args).map fun _ => rfl

theorem mapM_inherited_lays (owner : Nat) (forms : List HeritageForm) :
    Lays owner TypeExpr.allInlineRefs (forms.mapM (inherited owner)) := by
  induction forms with
  | nil => exact .pure rfl
  | cons form forms ih =>
    rw [List.mapM_cons]
    exact (inherited_lays owner form).both ih fun _ _ => rfl

theorem classMember_adds (parent : Nat) (form : ClassMemberForm) :
    Adds parent (classMember parent form) := by
  cases form with
  | constructor origin access parameters =>
    exact Adds.add_adds ⟨rfl, rfl, rfl⟩ (fun _ => rfl) fun node => params_adds node 0 parameters
  | method origin name modifiers form => exact function_adds parent origin (by simp) name modifiers form
  | accessor origin name setter => exact .discard_add ⟨rfl, rfl, rfl⟩ fun _ => rfl
  | property origin decl form =>
    refine Adds.add_bind (fun _ => rfl) fun t pre node hnode hfilling => ?_
    exact annotation_fills form hfilling (hnode ▸ ⟨rfl, rfl, rfl⟩) (hnode ▸ fun _ => rfl)

/-- A clause without types is left out. -/
theorem types_of_clause (kind : HeritageKind) (types : List TypeExpr) :
    (if types.isEmpty then [] else [{ kind, types : HeritageClause }]).flatMap (·.types) = types := by
  cases types with
  | nil => rfl
  | cons type types => exact List.append_nil _

theorem classDecl_adds (parent : Nat) (origin : Origin) (name : String) (form : ClassForm) :
    Adds parent (classDecl parent origin name form) := by
  unfold classDecl
  refine Adds.add_bind (fun _ => rfl) fun t pre node hnode hfilling => ?_
  have hextended := hfilling.lays (mapM_inherited_lays pre.length form.parent.toList)
  have himplemented := hextended.lays (mapM_inherited_lays pre.length form.interfaces)
  refine himplemented.inherit ?_ (Lays.forM (classMember_adds pre.length)) (hnode ▸ ⟨rfl, rfl, rfl⟩)
    (hnode ▸ rfl)
  rw [List.flatMap_append, types_of_clause, types_of_clause, TypeExpr.allInlineRefs_append]
  rfl

theorem interface_adds (parent : Nat) (origin : Origin) (name : String) (typeParams : List String)
    (parents : List HeritageForm) (members : List MemberForm) :
    Adds parent (interface parent origin name typeParams parents members) := by
  unfold interface
  refine Adds.add_bind (fun _ => rfl) fun t pre node hnode hfilling => ?_
  have hextended := hfilling.lays (mapM_inherited_lays pre.length parents)
  refine hextended.inherit ?_ (typeMembers_adds pre.length members) (hnode ▸ ⟨rfl, rfl, rfl⟩)
    (hnode ▸ rfl)
  rw [types_of_clause]
  rfl

mutual

theorem item_adds (parent : Nat) : ∀ form, Adds parent (item parent form)
  | .variable origin name initializer form => by
    unfold item
    refine Adds.add_bind (fun _ => rfl) fun t pre node hnode hfilling => ?_
    exact annotation_fills form hfilling (hnode ▸ ⟨rfl, rfl, rfl⟩) (hnode ▸ fun _ => rfl)
  | .function origin name form => by
    unfold item
    exact function_adds parent origin (by simp) name {} form
  | .classDecl origin name form => by
    unfold item
    exact classDecl_adds parent origin name form
  | .interface origin name typeParams parents members => by
    unfold item
    exact interface_adds parent origin name typeParams parents members
  | .typeAlias origin name typeParams form => by
    unfold item
    refine Adds.add_bind (fun _ => rfl) fun t pre node hnode hfilling => ?_
    exact annotation_fills form hfilling (hnode ▸ ⟨rfl, rfl, rfl⟩) (hnode ▸ fun _ => rfl)
  | .enum origin name members => by
    unfold item
    exact .discard_add ⟨rfl, rfl, rfl⟩ fun _ => rfl
  | .namespaceDecl origin name external forms => by
    unfold item
    exact Adds.add_adds ⟨rfl, rfl, rfl⟩ (fun _ => rfl) fun node => items_adds node forms
  | .exportAssignment origin => by
    unfold item
    exact .discard_add ⟨rfl, rfl, rfl⟩ fun _ => rfl

theorem items_adds (parent : Nat) : ∀ forms, Adds parent (items parent forms)
  | [] => by
    unfold items
    exact .pure rfl
  | form :: forms => by
    unfold items
    exact (item_adds parent form).seq (items_adds parent forms)

end

end Source.Placing

theorem Source.ModuleForm.laidOut_toTree (fileName : String) (form : ModuleForm) :
    (form.toTree fileName).LaidOut := by
  obtain ⟨nodes, hnodes, hlaid⟩ :=
    Placing.items_adds 0 form.items (Tree.ofFile fileName form.moduleName)
  exact ⟨_, nodes, hnodes, rfl, hlaid⟩

/-- The tree of a module is in the order of the document, and its inline types are linked to the places
where they are written: what a declaration names, in its annotation or its heritage clauses, is a child of
it and of the kind it is named as, and every inline type is named exactly once, by its parent. -/
theorem Source.ModuleForm.linked_toTree (fileName : String) (form : ModuleForm) :
    let t := form.toTree fileName
    t.preorder = List.range t.size ∧
      (∀ n a : Nat, .object a ∈ (t.decl n).inlineRefs →
        a ∈ t.children n ∧ (t.decl a).isObjectType = true) ∧
      (∀ n a : Nat, .function a ∈ (t.decl n).inlineRefs →
        a ∈ t.children n ∧ (t.decl a).isFunctionType = true) ∧
      ∀ a : Nat, ((t.decl a).isObjectType = true ∨ (t.decl a).isFunctionType = true) →
        ∃ p : Nat, t.parent? a = some p ∧ ((t.decl p).inlineRefs.map InlineRef.node).count a = 1 ∧
          ∀ n : Nat, n ≠ p → ∀ r ∈ (t.decl n).inlineRefs, r.node ≠ a := by
  intro t
  have hroot := (form.placed_toTree fileName).toRooted
  have hlaid := form.laidOut_toTree fileName
  have hchild : ∀ (n : Nat) (r : InlineRef), r ∈ (t.decl n).inlineRefs → r.node ∈ t.children n := by
    intro n r hr
    obtain ⟨-, hlt, hparent⟩ := (hlaid.names n).1.child r hr
    exact Tree.mem_children.2 ⟨hlt, hparent⟩
  refine ⟨hroot.preorder_eq_range (hlaid.consecutive hroot), ?_, ?_, ?_⟩
  · intro n a ha
    exact ⟨hchild n _ ha, (Decl.inlineRef?_eq_object ((hlaid.names n).1.kind _ ha)).2⟩
  · intro n a ha
    exact ⟨hchild n _ ha, (Decl.inlineRef?_eq_function ((hlaid.names n).1.kind _ ha)).2⟩
  · rintro a (hobject | hfunction)
    · exact hlaid.named_once (Decl.inlineRef?_of_isObjectType hobject)
    · exact hlaid.named_once (Decl.inlineRef?_of_isFunctionType hfunction)

end DocBlock
