import DocBlock.Proofs.Synthesis.Unnamed

/-! # Recursions that end

Two recursions go through a tree without an end that their texts would show. Naming the type of a
declaration asks for the types of the function types in its annotation (`Tree.AsksType`), and naming an
owner that is an inline object type asks for the owner of that one (`Tree.AsksOwner`). Where inline types are
children of the declarations they annotate, the first goes down the tree and the second goes up
(`Tree.recursions_end`), and the bound on the depth of types is never reached. Without this condition a type
may ask for itself, and then no depth is enough to name it (`typeWithin_stuck_of_returns_itself`). -/

namespace DocBlock

/-! ## Recursions over nodes -/

/-- Whether a recursion over nodes ends and computes `f`: a step takes only the values of the nodes that are
asked for, and nothing is asked for forever. -/
structure Computes {α : Type} (asks : NodeId → NodeId → Prop) (step : (NodeId → α) → NodeId → α)
    (f : NodeId → α) : Prop where
  wellFounded : WellFounded asks
  congr : ∀ g g' i, (∀ j, asks j i → g j = g' j) → step g i = step g' i
  eq_step : ∀ i, f i = step f i

/-- A recursion that ends has one solution. -/
theorem Computes.unique {α : Type} {asks : NodeId → NodeId → Prop} {step : (NodeId → α) → NodeId → α}
    {f g : NodeId → α} (h : Computes asks step f) (hg : ∀ i, g i = step g i) : g = f := by
  funext i
  induction i using h.wellFounded.induction with
  | h i ih => rw [hg, h.eq_step, h.congr g f i ih]

namespace Tree

variable {t : Tree} {i j a : Nat}

/-! ## What is asked for -/

/-- Whether naming the type of `i` asks for the type of `j`: a function type stands in the annotation of
`i`, and `j` is this function type, whose result is named, or one of its parameters. -/
def AsksType (t : Tree) (j i : NodeId) : Prop :=
  ∃ type a, (t.decl i).annotation? = some type ∧ a ∈ type.inlineNodes ∧
    (t.decl a).isFunctionType = true ∧ (j = a ∨ j ∈ t.children a ∧ (t.decl j).isParameter = true)

/-- Whether naming the owner of `i` asks for the owner of `a`: `i` is a member of the inline object type
`a`. -/
def AsksOwner (t : Tree) (a i : NodeId) : Prop :=
  ((t.ancestors i).find? fun b => (t.decl b).isOwner) = some a ∧ t.decl a = .objectType

/-- A tree as modules are read to: what a declaration is placed in comes before it, and the inline types that
annotate a declaration are children of it. -/
structure Descends (t : Tree) : Prop where
  rooted : t.Rooted
  inlineChildren : t.InlineChildren

/-- Types are asked for further down. -/
theorem AsksType.lt (h : t.Descends) (hasks : t.AsksType j i) : i < j ∧ j < t.size := by
  obtain ⟨type, a, htype, ha, -, hj⟩ := hasks
  have hchild := h.inlineChildren i type htype a ha
  have hlt := h.rooted.lt_of_mem_children hchild
  rcases hj with rfl | ⟨hj, -⟩
  · exact ⟨hlt, (mem_children.1 hchild).1⟩
  · exact ⟨Nat.lt_trans hlt (h.rooted.lt_of_mem_children hj), (mem_children.1 hj).1⟩

theorem wellFounded_asksType (h : t.Descends) : WellFounded t.AsksType := by
  refine Subrelation.wf (fun {j i} hasks => ?_) (measure fun i => t.size - i).wf
  obtain ⟨hlt, hsize⟩ := hasks.lt h
  show t.size - j < t.size - i
  omega

/-- Owners are asked for further up. -/
theorem wellFounded_asksOwner (t : Tree) : WellFounded t.AsksOwner :=
  Subrelation.wf (fun hasks => lt_of_mem_ancestors (List.mem_of_find?_eq_some hasks.1)) Nat.lt_wfRel.wf

/-! ## Owners -/

/-- The owner of a declaration, given the names of inline object types. -/
def ownerWith (t : Tree) (fullName : NodeId → Except Error String) (i : NodeId) :
    Except Error (Option String) :=
  match (t.ancestors i).find? fun a => (t.decl a).isOwner with
  | none => .ok none
  | some a =>
    match t.decl a with
    | .objectType => some <$> fullName a
    | .file moduleName => .ok moduleName
    | .namespaceDecl n =>
      .ok ((t.qualifiedName? a).map fun name => if n.external then "module:" ++ name else name)
    | _ => .ok (t.qualifiedName? a)

/-- The name of an inline object type, given the owners of declarations. -/
def fullNameWith (t : Tree) (ownerName : NodeId → Except Error (Option String)) (i : NodeId) :
    Except Error String := do
  let owner ← ownerName i
  let name ← t.anonymousName i
  return behindOwner owner name

theorem anonymousFullName_eq_fullNameWith (t : Tree) (i : NodeId) :
    t.anonymousFullName i = t.fullNameWith t.ownerName i := rfl

theorem ownerName_eq_ownerWith (t : Tree) (i : NodeId) :
    t.ownerName i = t.ownerWith t.anonymousFullName i := by
  rw [ownerName, ownerWith]
  split
  · rename_i hfind
    rw [hfind]
  · rename_i a hfind
    rw [hfind]
    dsimp only
    cases t.decl a with
    | objectType =>
      -- The full name is the name behind the owner, in both.
      simp only [anonymousFullName]
      cases t.ownerName a with
      | error error => rfl
      | ok owner => cases t.anonymousName a <;> rfl
    | _ => rfl

/-- Only the inline object type that a declaration is a member of is asked for its name. -/
theorem ownerWith_congr {fullName fullName' : NodeId → Except Error String}
    (h : ∀ a, t.AsksOwner a i → fullName a = fullName' a) :
    t.ownerWith fullName i = t.ownerWith fullName' i := by
  unfold ownerWith
  split
  · rfl
  · rename_i a hfind
    split
    · rename_i hobject
      rw [h a ⟨hfind, hobject⟩]
    · rfl
    · rfl
    · rfl

theorem computes_ownerName (t : Tree) :
    Computes t.AsksOwner (fun ownerName => t.ownerWith (t.fullNameWith ownerName)) t.ownerName where
  wellFounded := t.wellFounded_asksOwner
  congr _ _ i h := ownerWith_congr fun a hasks => by rw [fullNameWith, fullNameWith, h a hasks]
  eq_step := t.ownerName_eq_ownerWith

theorem computes_anonymousFullName (t : Tree) :
    Computes t.AsksOwner (fun fullName => t.fullNameWith (t.ownerWith fullName)) t.anonymousFullName where
  wellFounded := t.wellFounded_asksOwner
  congr _ _ i h := by rw [fullNameWith, fullNameWith, ownerWith_congr h]
  eq_step i := by
    rw [anonymousFullName_eq_fullNameWith, fullNameWith, fullNameWith, ownerName_eq_ownerWith]

end Tree

namespace Synthesis

variable {α β : Type} {t : Tree} {table : SymbolTable} {id depth node inline : Nat}
  {typeOf typeOf' : NodeId → Synthesis String}

/-! ## Types -/

theorem lift_bind_congr {e : Except Error α} {f g : α → Synthesis β} (h : ∀ a, e = .ok a → f a = g a) :
    (liftM e >>= f : Synthesis β) = liftM e >>= g := by
  cases e with
  | error error => rfl
  | ok a => exact funext fun p => congrFun (h a rfl) p

theorem forM_congr {xs : List α} {f g : α → Synthesis Unit} (h : ∀ x ∈ xs, f x = g x) :
    xs.forM f = xs.forM g := by
  induction xs with
  | nil => rfl
  | cons x xs ih =>
    show (f x >>= fun _ => xs.forM f) = g x >>= fun _ => xs.forM g
    rw [h x List.mem_cons_self, ih fun y hy => h y (List.mem_cons_of_mem x hy)]

/-- The facts of a signature only ask for the types of its declaration and of its parameters. -/
theorem addSignature_congr {s : Signature} (hs : t.signature? node = some s)
    (h : ∀ j : Nat, (j = node ∨ j ∈ t.children node ∧ (t.decl j).isParameter = true) →
      typeOf j = typeOf' j) : addSignature t typeOf id s = addSignature t typeOf' id s := by
  obtain ⟨hdeclaration, hparameters⟩ := signature?_nodes hs
  have hparam : ∀ j ∈ s.parameters, addParam t typeOf id j = addParam t typeOf' id j := by
    intro j hj
    unfold addParam
    split
    · rename_i p hdecl
      rw [h j (.inr ⟨hparameters j hj, by rw [hdecl]; rfl⟩)]
    · rfl
  rw [addSignature_eq, addSignature_eq, forM_congr hparam, h s.declaration (.inl hdeclaration)]

/-- Behind the entry of an inline type, only the types of a function type and of its parameters are
asked for. -/
theorem addInline_congr (h : (t.decl inline).isFunctionType = true → ∀ j : Nat,
      (j = inline ∨ j ∈ t.children inline ∧ (t.decl j).isParameter = true) → typeOf j = typeOf' j) :
    addInline t typeOf node inline = addInline t typeOf' node inline := by
  unfold addInline
  refine lift_bind_congr fun name _ => bind_congr fun id => bind_congr fun _ => ?_
  split
  · rename_i hfunction
    refine bind_congr fun _ => ?_
    split
    · rename_i s hs
      exact addSignature_congr hs (h hfunction)
    · rfl
  · rfl

/-- The name of the type of a declaration, given how the types that it asks for are named. -/
def typeWith (t : Tree) (table : SymbolTable) (typeOf : NodeId → Synthesis String) (node : NodeId) :
    Synthesis String := do
  let decl := t.decl node
  let result ← t.resolveTypeName table node decl.annotation? (t.typeOf? table node)
  recordNamed node
  result.anonymous.forM (addInline t typeOf node)
  return shownType decl result.name

theorem typeWithin_succ (t : Tree) (table : SymbolTable) (depth : Nat) (node : NodeId) :
    typeWithin t table (depth + 1) node = typeWith t table (typeWithin t table depth) node := rfl

/-- Only the types that a declaration asks for have a part in the name of its type. -/
theorem typeWith_congr (h : ∀ j, t.AsksType j node → typeOf j = typeOf' j) :
    typeWith t table typeOf node = typeWith t table typeOf' node := by
  unfold typeWith
  refine lift_bind_congr fun result hresult => bind_congr fun _ => ?_
  rw [forM_congr fun inline hinline => addInline_congr fun hfunction j hj => ?_]
  obtain ⟨type, htype, hmem⟩ := exists_annotation_of_anonymous hresult hinline
  exact h j ⟨type, inline, htype, hmem, hfunction, hj⟩

/-- Once the depth reaches to the end of the tree, more of it changes nothing. -/
theorem typeWithin_succ_eq (h : t.Descends) (hpos : 0 < depth)
    (hdepth : t.size ≤ depth + node) :
    typeWithin t table (depth + 1) node = typeWithin t table depth node := by
  induction depth generalizing node with
  | zero => exact absurd hpos (Nat.lt_irrefl 0)
  | succ depth ih =>
    rw [typeWithin_succ, typeWithin_succ t table depth]
    refine typeWith_congr fun j hasks => ?_
    -- What is asked for stands further down, so a smaller depth is enough for it.
    obtain ⟨hlt, hsize⟩ := hasks.lt h
    exact ih (by omega) (by omega)

theorem computes_typeFor (table : SymbolTable) (h : t.Descends) :
    Computes t.AsksType (typeWith t table) (typeFor t table) where
  wellFounded := Tree.wellFounded_asksType h
  congr _ _ _ := typeWith_congr
  eq_step _ := (typeWithin_succ_eq h h.rooted.size_pos (Nat.le_add_right _ _)).symm

/-- Every depth that reaches to the end of the tree names the same types. -/
theorem typeWithin_eq_typeFor (h : t.Descends) (hdepth : t.size ≤ depth) :
    typeWithin t table depth = typeFor t table := by
  refine (computes_typeFor table h).unique fun node => ?_
  have hpos := Nat.lt_of_lt_of_le h.rooted.size_pos hdepth
  exact (typeWithin_succ_eq h hpos (Nat.le_add_right_of_le hdepth)).symm

theorem addSignature_stuck {s : Signature} (hvalue : s.returnsValue = true)
    (hresult : Stuck (typeOf s.declaration)) : Stuck (addSignature t typeOf id s) := by
  rw [addSignature_eq]
  refine Stuck.bind_right fun _ => Stuck.bind_right fun _ => ?_
  rw [if_pos hvalue]
  exact hresult.bind_left

/-- A function type that returns itself is named at no depth. -/
theorem typeWithin_stuck_of_returns_itself {c : Callable}
    (hdecl : t.decl node = .callable .functionType c) (htype : c.returnType = some (.function node)) :
    Stuck (typeWithin t table depth node) := by
  have hannotation : (t.decl node).annotation? = some (.function node) := by rw [hdecl]; exact htype
  have hvalue : Tree.givesValue .functionType c = true := by simp [Tree.givesValue, htype, TypeExpr.isVoid]
  induction depth with
  | zero => exact fun _ => ⟨_, rfl⟩
  | succ depth ih =>
    -- The entry of the function type has a result, which is the function type again.
    have hinline : Stuck (addInline t (typeWithin t table depth) node node) := by
      unfold addInline Tree.signature?
      rw [hdecl]
      refine Stuck.bind_right fun name => Stuck.bind_right fun id => Stuck.bind_right fun _ => ?_
      exact Stuck.bind_right fun _ => addSignature_stuck hvalue ih
    rw [typeWithin_succ, typeWith, hannotation]
    refine Stuck.lift_bind_right fun result hresult => Stuck.bind_right fun _ => Stuck.bind_left ?_
    rw [Tree.resolveTypeName, Tree.resolveExpr] at hresult
    obtain ⟨name, -, hname⟩ := Error.bind_eq_ok.1 hresult
    obtain rfl := Except.ok.inj hname
    exact Stuck.forM (List.mem_singleton_self node) hinline

end Synthesis

/-! ## Passes -/

namespace Tree

open Synthesis

/-- The error of a pass that meets an inline type without a declaration that names it. -/
def Unnamed (t : Tree) (error : Error) : Prop :=
  ∃ kind excerpt, error = .unnamed t.fileName kind excerpt

/-- Where inline types are children of the declarations they annotate, as in every module that is read, the
names of types and of owners are computed by recursions that end. A bound on the depth of types that reaches to
the end of the tree is never met: it has no part in the name of a type, and nothing fails but for an inline
type without a declaration to name it. -/
theorem recursions_end (table : SymbolTable) :
    (∀ (form : Source.ModuleForm) (path : String), (form.toTree path).Descends) ∧
    ∀ t : Tree, t.Descends →
      Computes t.AsksType (typeWith t table) (typeFor t table) ∧
      Computes t.AsksOwner (fun ownerName => t.ownerWith (t.fullNameWith ownerName)) t.ownerName ∧
      Computes t.AsksOwner (fun fullName => t.fullNameWith (t.ownerWith fullName)) t.anonymousFullName ∧
      (∀ depth, t.size ≤ depth → typeWithin t table depth = typeFor t table) ∧
      (∀ node < t.size, FailsOnly t.Unnamed (typeFor t table node)) ∧
      Error.Only t.Unnamed (t.collect table) := by
  refine ⟨fun form path => ?_, fun t h => ?_⟩
  · exact ⟨(form.placed_toTree path).toRooted, (form.inlined_toTree path).inlineChildren⟩
  · have hunnamed : ∀ i, Error.Only t.Unnamed (t.anonymousName i) := fun i _ => anonymousName_unnamed
    have hnames : t.Names t.Unnamed :=
      ⟨h.rooted, h.inlineChildren, fun i _ => hunnamed i, fun i _ _ _ => hunnamed i⟩
    exact ⟨computes_typeFor table h, t.computes_ownerName, t.computes_anonymousFullName,
      fun _ => typeWithin_eq_typeFor h, fun _ => typeFor_failsOnly hnames, hnames.collect table⟩

/-- A variable of a function type that takes a function and returns one. -/
def callbackModule : Source.ModuleForm where
  items :=
    [.variable {} "run" none (some (.function {} []
      [.mk {} { name := Source.Word.of? "then" } (some (.function {} [] [] (.word "void")))]
      (.function {} [] [] (.word "string"))))]

theorem recursions_end_callbackModule :
    let t := callbackModule.toTree "a.ts"
    t.Descends ∧ (t.AsksType 2 1 ∧ t.AsksType 5 2 ∧ t.AsksType 3 1 ∧ t.AsksType 4 3) ∧
      WellFounded t.AsksType ∧ typeWithin t {} 1000 = typeFor t {} ∧
      Error.Only t.Unnamed (t.collect {}) := by
  intro t
  have h : t.Descends := (recursions_end {}).1 callbackModule "a.ts"
  obtain ⟨htype, -, -, hdepth, -, hcollect⟩ := (recursions_end {}).2 t h
  refine ⟨h, ⟨?_, ?_, ?_, ?_⟩, htype.wellFounded, hdepth 1000 (by decide +kernel), hcollect⟩
  · exact ⟨.function 2, 2, rfl, List.mem_singleton_self 2, rfl, .inl rfl⟩
  · exact ⟨.function 5, 5, rfl, List.mem_singleton_self 5, rfl, .inl rfl⟩
  · exact ⟨.function 2, 2, rfl, List.mem_singleton_self 2, rfl, .inr ⟨by decide +kernel, rfl⟩⟩
  · exact ⟨.function 4, 4, rfl, List.mem_singleton_self 4, rfl, .inl rfl⟩

end Tree

end DocBlock
