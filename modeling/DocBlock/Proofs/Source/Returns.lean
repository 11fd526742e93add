import DocBlock.Proofs.Source.Steady

/-! # Which functions return a value

A value that is returned in a body is returned by the innermost function-like construct around it, and by
the function itself when there is none (`Code.Returns`). The look through a body ends at functions, arrow
functions, classes and methods of objects, but not at getters and setters of objects; so it also finds the
values that these return (`Code.anyReturnsValue_iff_holds`). What it finds is what the node of a function
or method says in the tree of a module (`ModuleForm.returnsValue_toTree`). -/

namespace DocBlock.Source

/-! ## Bodies -/

/-- Whether a construct is a function of its own, so that what is returned in it is not returned by the
function around it. -/
def Construct.isFunctionLike : Construct → Bool
  | statement => false
  | returnValue => false
  | returnNothing => false
  | _ => true

/-- Whether a construct is a getter or setter of an object. -/
def Construct.isObjectAccessor : Construct → Bool
  | getter => true
  | setter => true
  | _ => false

/-- The constructs that are not passed over. -/
theorem Construct.ownsReturns_eq_false_iff {k : Construct} :
    k.ownsReturns = false ↔ (k.isFunctionLike = true → k.isObjectAccessor = true) := by
  cases k <;> decide

namespace Code

variable {codes parts : List Code} {path : List Construct} {construct outer : Construct}

/-- A construct stands somewhere in some others, inside the constructs of `path`, innermost first. -/
inductive Holds : List Code → List Construct → Construct → Prop
  | here {codes parts : List Code} {construct : Construct} (h : .node construct parts ∈ codes) :
      Holds codes [] construct
  | inside {codes parts : List Code} {path : List Construct} {outer construct : Construct}
      (h : .node outer parts ∈ codes) (hparts : Holds parts path construct) :
      Holds codes (path ++ [outer]) construct

@[simp] theorem not_holds_nil : ¬Holds [] path construct := by
  intro h
  cases h with
  | here h => cases h
  | inside h => cases h

/-- What stands in one construct is the construct itself, or it stands in its parts. -/
@[simp] theorem holds_singleton : Holds [.node outer parts] path construct ↔
    (path = [] ∧ construct = outer) ∨ ∃ rest, path = rest ++ [outer] ∧ Holds parts rest construct := by
  constructor
  · intro h
    cases h with
    | here h =>
      cases List.mem_singleton.1 h
      exact .inl ⟨rfl, rfl⟩
    | inside h hparts =>
      cases List.mem_singleton.1 h
      exact .inr ⟨_, rfl, hparts⟩
  · rintro (⟨rfl, rfl⟩ | ⟨rest, rfl, hparts⟩)
    · exact .here (List.mem_singleton_self _)
    · exact .inside (List.mem_singleton_self _) hparts

/-- A value is returned in a body, and `owner` is the innermost function-like construct around it; where it
is none, the value is returned by the function of the body. -/
def Returns (codes : List Code) (owner : Option Construct) : Prop :=
  ∃ path, Holds codes path .returnValue ∧ path.find? Construct.isFunctionLike = owner

theorem Holds.mono {codes' : List Code} (h : Holds codes path construct) (hsub : codes ⊆ codes') :
    Holds codes' path construct := by
  cases h with
  | here hmem => exact .here (hsub hmem)
  | inside hmem hparts => exact .inside (hsub hmem) hparts

theorem anyReturnsValue_eq (codes : List Code) : anyReturnsValue codes = codes.any returnsValue := by
  induction codes with
  | nil => rfl
  | cons code codes ih => rw [anyReturnsValue, ih, List.any_cons]

theorem returnsValue_node (construct : Construct) (parts : List Code) :
    (node construct parts).returnsValue =
      (construct == .returnValue || !construct.ownsReturns && anyReturnsValue parts) := by
  cases construct <;> simp [returnsValue, Construct.ownsReturns]

/-- The look finds a value that is returned inside constructs that are not passed over. -/
theorem Holds.anyReturnsValue (h : Holds codes path .returnValue)
    (hpath : ∀ k ∈ path, k.ownsReturns = false) : anyReturnsValue codes = true := by
  generalize hvalue : Construct.returnValue = construct at h
  rw [anyReturnsValue_eq, List.any_eq_true]
  induction h with
  | here hmem =>
    refine ⟨_, hmem, ?_⟩
    rw [returnsValue_node, ← hvalue]
    rfl
  | inside hmem _ ih =>
    obtain ⟨inner, hinner, hreturns⟩ := ih (fun k hk => hpath k (List.mem_append_left _ hk)) hvalue
    refine ⟨_, hmem, ?_⟩
    have houter := hpath _ (List.mem_append_right _ (List.mem_singleton_self _))
    rw [returnsValue_node, houter, anyReturnsValue_eq, List.any_eq_true.2 ⟨inner, hinner, hreturns⟩]
    exact Bool.or_true _

mutual

/-- The look does not pass over anything on the way to the value that it finds. -/
theorem exists_holds_of_returnsValue : ∀ code : Code, code.returnsValue = true →
    ∃ path, Holds [code] path .returnValue ∧ ∀ k ∈ path, k.ownsReturns = false
  | node construct parts => by
    intro h
    rw [returnsValue_node, Bool.or_eq_true, beq_iff_eq, Bool.and_eq_true, Bool.not_eq_true'] at h
    rcases h with rfl | ⟨howns, hparts⟩
    · exact ⟨[], .here (List.mem_singleton_self _), fun k hk => absurd hk List.not_mem_nil⟩
    · obtain ⟨path, hholds, hpath⟩ := exists_holds_of_anyReturnsValue parts hparts
      refine ⟨path ++ [construct], .inside (List.mem_singleton_self _) hholds, fun k hk => ?_⟩
      rcases List.mem_append.1 hk with hk | hk
      · exact hpath k hk
      · rw [List.mem_singleton.1 hk]
        exact howns

theorem exists_holds_of_anyReturnsValue : ∀ codes : List Code, anyReturnsValue codes = true →
    ∃ path, Holds codes path .returnValue ∧ ∀ k ∈ path, k.ownsReturns = false
  | [] => fun h => by cases h
  | code :: codes => by
    intro h
    rw [anyReturnsValue, Bool.or_eq_true] at h
    rcases h with hfirst | hrest
    · obtain ⟨path, hholds, hpath⟩ := exists_holds_of_returnsValue code hfirst
      exact ⟨path, hholds.mono (List.cons_subset_cons code (List.nil_subset codes)), hpath⟩
    · obtain ⟨path, hholds, hpath⟩ := exists_holds_of_anyReturnsValue codes hrest
      exact ⟨path, hholds.mono (List.subset_cons_self code codes), hpath⟩

end

/-- The look through a body finds the values that are returned inside no function-like constructs but
getters and setters of objects. -/
theorem anyReturnsValue_iff_holds : anyReturnsValue codes = true ↔
    ∃ path, Holds codes path .returnValue ∧
      ∀ k ∈ path, k.isFunctionLike = true → k.isObjectAccessor = true := by
  constructor
  · intro h
    obtain ⟨path, hholds, hpath⟩ := exists_holds_of_anyReturnsValue codes h
    exact ⟨path, hholds, fun k hk => Construct.ownsReturns_eq_false_iff.1 (hpath k hk)⟩
  · rintro ⟨path, hholds, hpath⟩
    exact hholds.anyReturnsValue fun k hk => Construct.ownsReturns_eq_false_iff.2 (hpath k hk)

/-- Where no getter or setter of an object returns a value, the look finds the values that the function
itself returns. -/
theorem anyReturnsValue_iff_returns
    (haccessors : ∀ k, Returns codes (some k) → k.isObjectAccessor = false) :
    anyReturnsValue codes = true ↔ Returns codes none := by
  rw [anyReturnsValue_iff_holds]
  constructor
  · rintro ⟨path, hholds, hpath⟩
    refine ⟨path, hholds, ?_⟩
    -- A function-like construct on the way would be a getter or setter, and the innermost one too.
    cases hfind : path.find? Construct.isFunctionLike with
    | none => rfl
    | some k =>
      have hlike := List.find?_some hfind
      have haccessor := hpath k (List.mem_of_find?_eq_some hfind) hlike
      rw [haccessors k ⟨path, hholds, hfind⟩] at haccessor
      cases haccessor
  · rintro ⟨path, hholds, hfind⟩
    rw [List.find?_eq_none] at hfind
    exact ⟨path, hholds, fun k hk hlike => absurd hlike (hfind k hk)⟩

end Code

/-! ## Functions and methods -/

/-- A function or method that is written in a module. -/
structure Routine where
  /-- Which of the two it is. -/
  role : CallableRole
  /-- The name. -/
  name : String
  /-- Where it was found. -/
  origin : Origin
  /-- The signature and body. -/
  form : FunctionForm

/-- The methods among the members of a class. -/
def ClassMemberForm.routines : ClassMemberForm → List Routine
  | .method origin name _ form => [{ role := .method, name, origin, form }]
  | _ => []

mutual

/-- The functions and methods in a declaration, in order. -/
def Item.routines : Item → List Routine
  | .function origin name form => [{ role := .function, name, origin, form }]
  | .classDecl _ _ decl => decl.members.flatMap ClassMemberForm.routines
  | .namespaceDecl _ _ _ items => Item.allRoutines items
  | _ => []

/-- The functions and methods in several declarations, in order. -/
def Item.allRoutines : List Item → List Routine
  | [] => []
  | item :: items => item.routines ++ Item.allRoutines items

end

/-- The functions and methods that are written in a module, in order. -/
def ModuleForm.routines (form : ModuleForm) : List Routine :=
  Item.allRoutines form.items

/-- The node of a function or method. -/
structure Stands (t : Tree) (routine : Routine) (i : NodeId) : Prop where
  lt_size : i < t.size
  comment : (t.node i).comment = routine.origin.doc
  callable : ∃ c, t.decl i = .callable routine.role c ∧ c.name = some routine.name ∧
    c.returnsValue = (routine.form.body.map Code.anyReturnsValue).getD false

theorem Stands.modifyDecl {t : Tree} {routine : Routine} {i : NodeId} (h : Stands t routine i)
    (node : NodeId) {f : Decl → Decl}
    (hf : ∀ role c, ∃ c' : Callable, f (.callable role c) = .callable role c' ∧ c'.name = c.name ∧
      c'.returnsValue = c.returnsValue) : Stands (t.modifyDecl node f) routine i := by
  obtain ⟨hlt, hcomment, c, hdecl, hname, hreturns⟩ := h
  refine ⟨by rw [Tree.size_modifyDecl]; exact hlt, (t.comment_modifyDecl node i f).trans hcomment, ?_⟩
  rcases t.decl_modifyDecl node i f with hsame | hchanged
  · exact ⟨c, hsame.trans hdecl, hname, hreturns⟩
  · obtain ⟨c', hc', hname', hreturns'⟩ := hf routine.role c
    rw [hdecl, hc'] at hchanged
    exact ⟨c', hchanged, hname'.trans hname, hreturns'.trans hreturns⟩

/-- A tree that has become another one in which the nodes of functions and methods are what they were. -/
def KeepsRoutines (t t' : Tree) : Prop :=
  t.size ≤ t'.size ∧ ∀ routine i, Stands t routine i → Stands t' routine i

theorem keepsRoutines_inherit (t : Tree) (node : NodeId) (heritage : List HeritageClause) :
    KeepsRoutines t (t.modifyDecl node (Decl.inherit heritage)) :=
  ⟨by rw [Tree.size_modifyDecl], fun _ _ h => h.modifyDecl node fun _ c => ⟨c, rfl, rfl, rfl⟩⟩

theorem keepsRoutines_steady : Placing.SteadyThroughout KeepsRoutines := by
  refine ⟨⟨fun t => ⟨Nat.le_refl _, fun _ _ h => h⟩,
    fun h h' => ⟨h.1.trans h'.1, fun r i hi => h'.2 r i (h.2 r i hi)⟩, ?_, ?_⟩,
    fun t node heritage _ => keepsRoutines_inherit t node heritage⟩
  · intro t parent decl comment excerpt _
    refine ⟨by rw [Tree.size_push]; omega, fun routine i h => ?_⟩
    have hnode : (t.push parent decl comment excerpt).node i = t.node i := by
      rw [Tree.node_push, if_neg (Nat.ne_of_lt h.lt_size)]
    refine ⟨by rw [Tree.size_push]; exact Nat.lt_succ_of_lt h.lt_size, ?_, ?_⟩
    · rw [hnode]
      exact h.comment
    · rw [Tree.decl, hnode]
      exact h.callable
  · intro t node type
    refine ⟨by rw [Tree.size_modifyDecl], fun routine i h => h.modifyDecl node fun role c => ?_⟩
    exact ⟨{ c with returnType := some type }, rfl, rfl, rfl⟩

namespace Placing

variable {α β : Type} {routines routines' : List Routine} {m : Placing α}

/-- A change that adds a node for each of some functions and methods, in order. -/
structure Places (routines : List Routine) (m : Placing α) : Prop where
  carries : Carries KeepsRoutines m
  nodes : ∀ t : Tree, ∃ nodes : List NodeId, nodes.Pairwise (· < ·) ∧
    (∀ i ∈ nodes, t.size ≤ i ∧ i < (m.run t).2.size) ∧
    List.Forall₂ (Stands (m.run t).2) routines nodes

namespace Places

theorem nil (hm : Carries KeepsRoutines m) : Places [] m :=
  ⟨hm, fun _ => ⟨[], .nil, fun _ hi => absurd hi List.not_mem_nil, .nil⟩⟩

/-- The nodes that are added later stand behind those that were added before. -/
theorem bind {f : α → Placing β} (hm : Places routines m) (hf : ∀ a, Places routines' (f a)) :
    Places (routines ++ routines') (m >>= f) where
  carries := keepsRoutines_steady.toSteady.bind hm.carries fun a => (hf a).carries
  nodes t := by
    obtain ⟨nodes, hsorted, hbetween, hstand⟩ := hm.nodes t
    obtain ⟨nodes', hsorted', hbetween', hstand'⟩ := (hf (m.run t).1).nodes (m.run t).2
    obtain ⟨hsize, hkeeps⟩ := (hf (m.run t).1).carries (m.run t).2
    refine ⟨nodes ++ nodes', ?_, ?_, ?_⟩
    · rw [List.pairwise_append]
      exact ⟨hsorted, hsorted', fun i hi j hj => Nat.lt_of_lt_of_le (hbetween i hi).2 (hbetween' j hj).1⟩
    · intro i hi
      rcases List.mem_append.1 hi with hi | hi
      · exact ⟨(hbetween i hi).1, Nat.lt_of_lt_of_le (hbetween i hi).2 hsize⟩
      · exact ⟨(hm.carries t).1.trans (hbetween' i hi).1, (hbetween' i hi).2⟩
    · exact List.rel_append (hstand.imp fun routine i h => hkeeps routine i h) hstand'

/-- What adds no function or method may come first. -/
theorem after {f : α → Placing β} (hm : Carries KeepsRoutines m) (hf : ∀ a, Places routines (f a)) :
    Places routines (m >>= f) :=
  (nil hm).bind hf

theorem forM {xs : List α} {g : α → List Routine} {f : α → Placing Unit} (hf : ∀ x, Places (g x) (f x)) :
    Places (xs.flatMap g) (xs.forM f) := by
  induction xs with
  | nil => exact nil (keepsRoutines_steady.toSteady.pure ())
  | cons x xs ih =>
    show Places (g x ++ xs.flatMap g) (f x >>= fun _ => xs.forM f)
    exact (hf x).bind fun _ => ih

end Places

/-- The node of a function or method is the first one that is added for it. -/
theorem function_places (parent : NodeId) (origin : Origin) (role : CallableRole) (name : String)
    (modifiers : Modifiers) (form : FunctionForm) :
    Places [{ role, name, origin, form }] (function parent origin role name modifiers form) where
  carries := function_carries keepsRoutines_steady.toSteady parent origin role name modifiers form
  nodes t := by
    have hs := keepsRoutines_steady.toSteady
    have hstands : Stands ((function parent origin role name modifiers form).run t).2
        { role, name, origin, form } t.size := by
      unfold function
      refine (hs.bind (params_carries hs t.size 0 form.params)
        (fun _ => annotation_carries hs t.size form.result) _).2 _ _ ⟨?_, ?_, ?_⟩
      · show t.size < (t.push _ _ _ _).size
        rw [Tree.size_push]
        exact Nat.lt_succ_self _
      · show ((t.push _ _ _ _).node t.size).comment = _
        rw [Tree.node_push, if_pos rfl]
      · show ∃ c, ((t.push _ _ _ _).node t.size).decl = _ ∧ _
        rw [Tree.node_push, if_pos rfl]
        exact ⟨_, rfl, rfl, rfl⟩
    refine ⟨[t.size], List.pairwise_singleton _ _, fun i hi => ?_, .cons hstands .nil⟩
    rw [List.mem_singleton.1 hi]
    exact ⟨Nat.le_refl _, hstands.lt_size⟩

theorem classMember_places (parent : NodeId) (form : ClassMemberForm) :
    Places form.routines (classMember parent form) := by
  have hcarries := classMember_carries keepsRoutines_steady.toSteady parent form
  cases form with
  | method origin name modifiers form => exact function_places parent origin .method name modifiers form
  | constructor => exact .nil hcarries
  | accessor => exact .nil hcarries
  | property => exact .nil hcarries

/-- The methods of a class come after its heritage. -/
theorem classDecl_places (parent : NodeId) (origin : Origin) (name : String) (form : ClassForm) :
    Places (form.members.flatMap ClassMemberForm.routines) (classDecl parent origin name form) := by
  have hs := keepsRoutines_steady.toSteady
  unfold classDecl
  refine .after (hs.add parent origin ⟨rfl, rfl, rfl⟩) fun node => ?_
  refine .after (hs.mapM (inherited_carries hs node)) fun extended => ?_
  refine .after (hs.mapM (inherited_carries hs node)) fun implemented => ?_
  refine .after (fun t => keepsRoutines_inherit t node _) fun _ => ?_
  exact .forM (classMember_places node)

mutual

theorem item_places (parent : NodeId) : ∀ form, Places form.routines (item parent form)
  | .function origin name form => by
    unfold item
    exact function_places parent origin .function name {} form
  | .classDecl origin name form => by
    unfold item
    exact classDecl_places parent origin name form
  | .namespaceDecl origin name external forms => by
    unfold item
    exact .after (keepsRoutines_steady.toSteady.add parent origin ⟨rfl, rfl, rfl⟩) fun node =>
      items_places node forms
  | .variable origin name initializer form => .nil (item_carries keepsRoutines_steady parent _)
  | .interface origin name typeParams parents members => .nil (item_carries keepsRoutines_steady parent _)
  | .typeAlias origin name typeParams form => .nil (item_carries keepsRoutines_steady parent _)
  | .enum origin name members => .nil (item_carries keepsRoutines_steady parent _)
  | .exportAssignment origin => .nil (item_carries keepsRoutines_steady parent _)

theorem items_places (parent : NodeId) : ∀ forms, Places (Item.allRoutines forms) (items parent forms)
  | [] => by
    unfold items
    exact .nil (keepsRoutines_steady.toSteady.pure _)
  | form :: forms => by
    unfold items
    exact (item_places parent form).bind fun _ => items_places parent forms

end

end Placing

/-- In the tree of a module every function and method has a node of its own, in order. The node says that a
value is returned just when one is returned in the body inside no function-like constructs but getters and
setters of objects; where no getter or setter of an object returns a value, just when the function itself
returns one. -/
theorem ModuleForm.returnsValue_toTree (form : ModuleForm) (path : String) :
    ∃ nodes : List NodeId, nodes.Pairwise (· < ·) ∧
      List.Forall₂ (fun routine i => ∃ c, (form.toTree path).decl i = .callable routine.role c ∧
        c.name = some routine.name ∧ ((form.toTree path).node i).comment = routine.origin.doc ∧
        (c.returnsValue = true ↔ ∃ codes ∈ routine.form.body, ∃ around,
          Code.Holds codes around .returnValue ∧
            ∀ k ∈ around, k.isFunctionLike = true → k.isObjectAccessor = true) ∧
        ∀ codes ∈ routine.form.body, (∀ k, Code.Returns codes (some k) → k.isObjectAccessor = false) →
          (c.returnsValue = true ↔ Code.Returns codes none)) form.routines nodes := by
  obtain ⟨nodes, hsorted, -, hstand⟩ :=
    (Placing.items_places 0 form.items).nodes (Tree.ofFile path form.moduleName)
  refine ⟨nodes, hsorted, hstand.imp ?_⟩
  rintro routine i ⟨-, hcomment, c, hdecl, hname, hreturns⟩
  refine ⟨c, hdecl, hname, hcomment, ?_, ?_⟩
  · cases hbody : routine.form.body with
    | none => simp [hreturns, hbody]
    | some codes => simp [hreturns, hbody, Code.anyReturnsValue_iff_holds]
  · intro codes hcodes haccessors
    rw [hreturns, Option.mem_def.1 hcodes, Option.map_some, Option.getD_some,
      Code.anyReturnsValue_iff_returns haccessors]

/-- A body in which a value is returned by a getter of an object. -/
def getterBody : List Code :=
  [.node .statement [.node .getter [.node .statement [.node .returnValue []]]]]

/-- A class with a method that returns a value, and a function with such a getter. -/
def getterModule : ModuleForm where
  items :=
    [.classDecl {} "Box"
      { members := [.method {} "open" {} { body := some [.node .statement [.node .returnValue []]] }] },
    .function {} "f" { body := some getterBody }]

/-- The method of the class returns a value itself. -/
theorem ModuleForm.returnsValue_toTree_getterModule :
    ∃ nodes : List NodeId, nodes.length = 2 ∧ ∃ i ∈ nodes, ∃ c,
      (getterModule.toTree "box.ts").decl i = .callable .method c ∧ c.name = some "open" ∧
      c.returnsValue = true := by
  obtain ⟨nodes, -, hroutines⟩ := returnsValue_toTree getterModule "box.ts"
  cases hroutines with
  | cons hmethod hrest =>
    obtain ⟨c, hdecl, hname, -, -, hreturns⟩ := hmethod
    refine ⟨_, congrArg (· + 1) hrest.length_eq.symm, _, List.mem_cons_self, c, hdecl, hname, ?_⟩
    refine (hreturns _ rfl ?_).2 ?_
    · simp [Code.Returns, Construct.isFunctionLike]
    · simp [Code.Returns, Construct.isFunctionLike]

/-- The node of the function says that a value is returned, which only the getter does. -/
theorem ModuleForm.returnsValue_getterModule :
    ∃ c, (getterModule.toTree "box.ts").decl 3 = .callable .function c ∧ c.name = some "f" ∧
      c.returnsValue = true ∧ ¬Code.Returns getterBody none := by
  refine ⟨_, rfl, rfl, by decide +kernel, ?_⟩
  simp [getterBody, Code.Returns, Construct.isFunctionLike]

end DocBlock.Source
