import DocBlock.Proofs.Source.Steady
import DocBlock.Proofs.Synthesis.Failures

/-! # Modules that cannot be documented

With a declaration around every inline type that names it, no name fails and a module is documented
(`collect_ok`). The property or method of an object type without such a declaration, and an alias of an
inline type without one, fail in every state of the pass (`Stuck`), so that they end it
(`collect_unnamed`). -/

namespace DocBlock

/-! ## Steps that cannot succeed -/

namespace Synthesis

variable {α β : Type} {m : Synthesis α} {f : α → Synthesis β} {t : Tree} {table : SymbolTable}
  {node : Nat}

/-- A step that fails in every state. -/
def Stuck (m : Synthesis α) : Prop :=
  ∀ p, ∃ error, m.run p = .error error

namespace Stuck

theorem bind_left (hm : Stuck m) : Stuck (m >>= f) := by
  intro p
  obtain ⟨error, herror⟩ := hm p
  refine ⟨error, ?_⟩
  rw [StateT.run_bind, herror]
  rfl

theorem bind_right (hf : ∀ a, Stuck (f a)) : Stuck (m >>= f) := by
  intro p
  rw [StateT.run_bind]
  cases hm : m.run p with
  | error error => exact ⟨error, rfl⟩
  | ok result => exact hf result.1 result.2

theorem lift_bind_right {e : Except Error α} (hf : ∀ a, e = .ok a → Stuck (f a)) :
    Stuck (liftM e >>= f) := by
  intro p
  cases e with
  | error error => exact ⟨error, rfl⟩
  | ok a => exact hf a rfl p

theorem lift_bind {e : Except Error α} (he : ∀ a, e ≠ .ok a) : Stuck (liftM e >>= f) :=
  lift_bind_right fun a ha => absurd ha (he a)

theorem map {g : α → β} (hm : Stuck m) : Stuck (g <$> m) := by
  rw [map_eq_pure_bind]
  exact hm.bind_left

theorem forM {xs : List α} {g : α → Synthesis Unit} {x : α} (hx : x ∈ xs) (hg : Stuck (g x)) :
    Stuck (xs.forM g) := by
  induction xs with
  | nil => exact absurd hx List.not_mem_nil
  | cons y ys ih =>
    show Stuck (g y >>= fun _ => ys.forM g)
    rcases List.mem_cons.1 hx with rfl | hx
    · exact hg.bind_left
    · exact bind_right fun _ => ih hx

end Stuck

end Synthesis

namespace Tree

variable {t : Tree} {table : SymbolTable} {node p : Nat}

/-- Whether a declaration is an inline type. -/
def isInline (t : Tree) (i : NodeId) : Bool :=
  (t.decl i).isObjectType || (t.decl i).isFunctionType

/-- Whether an ancestor of a node gives names to the anonymous types below it. -/
def isNamedFromAbove (t : Tree) (i : NodeId) : Bool :=
  (t.ancestors i).any fun a => (t.decl a).namesAnonymous

theorem anonymousName_unnamed {error : Error} (h : t.anonymousName node = .error error) :
    ∃ kind excerpt, error = .unnamed t.fileName kind excerpt := by
  rw [anonymousName] at h
  split at h
  · cases h
    exact ⟨_, _, rfl⟩
  · cases h

theorem anonymousName_ok (h : ∃ a ∈ t.lineage node, (t.decl a).namesAnonymous = true) :
    ∃ name, t.anonymousName node = .ok name := by
  rw [anonymousName]
  split
  · rename_i hnone
    obtain ⟨a, ha, hnames⟩ := h
    exact absurd hnames (List.find?_eq_none.1 hnone a ha)
  · exact ⟨_, rfl⟩

theorem anonymousName_ne_ok (hself : (t.decl node).namesAnonymous = false)
    (hup : t.isNamedFromAbove node = false) (name : String) : t.anonymousName node ≠ .ok name := by
  intro hok
  rw [anonymousName] at hok
  split at hok
  · cases hok
  · rename_i a hfind
    have hnames := List.find?_some hfind
    rcases List.mem_cons.1 (List.mem_of_find?_eq_some hfind) with rfl | ha
    · rw [hself] at hnames
      cases hnames
    · have hany : t.isNamedFromAbove node = true := List.any_eq_true.2 ⟨a, ha, hnames⟩
      rw [hup] at hany
      cases hany

/-- The members of an object type that cannot be named have no owner to be named. -/
theorem ownerName_ne_ok (h : t.Rooted) (hnode : node < t.size) (hparent : t.parent? node = some p)
    (hobject : t.decl p = .objectType) (hup : t.isNamedFromAbove p = false) (owner : Option String) :
    t.ownerName node ≠ .ok owner := by
  have hself : (t.decl p).namesAnonymous = false := by rw [hobject]; rfl
  have hfind : (t.ancestors node).find? (fun a => (t.decl a).isOwner) = some p := by
    rw [h.ancestors_eq hnode hparent, lineage]
    exact List.find?_cons_of_pos (by rw [hobject]; rfl)
  intro hok
  rw [ownerName] at hok
  split at hok
  · rename_i hnone
    rw [hfind] at hnone
    cases hnone
  · rename_i a ha
    obtain rfl : p = a := Option.some.inj (hfind.symm.trans ha)
    rw [hobject] at hok
    obtain ⟨_, -, hrest⟩ := Error.bind_eq_ok.1 hok
    obtain ⟨name, hname, -⟩ := Error.bind_eq_ok.1 hrest
    exact anonymousName_ne_ok hself hup name hname

end Tree

namespace Synthesis

variable {t : Tree} {table : SymbolTable} {node p : Nat}

/-- A property of an object type that cannot be named. -/
theorem documentVariable_stuck (hparent : t.parent? node = some p) (hobject : t.decl p = .objectType)
    (hup : t.isNamedFromAbove p = false) : Stuck (documentVariable t table node) := by
  have hfilter : (t.parent? node).filter (fun p => (t.decl p).isObjectType) = some p := by
    rw [hparent, Option.filter_eq_some_iff, hobject]
    exact ⟨rfl, rfl⟩
  unfold documentVariable
  rw [hfilter]
  refine Stuck.bind_left (Stuck.lift_bind ?_)
  exact Tree.anonymousName_ne_ok (by rw [hobject]; rfl) hup

/-- A method of an object type that cannot be named. -/
theorem documentFunction_stuck (h : t.Rooted) (hnode : node < t.size)
    (hparent : t.parent? node = some p) (hobject : t.decl p = .objectType)
    (hup : t.isNamedFromAbove p = false) : Stuck (documentFunction t table node) := by
  unfold documentFunction
  refine Stuck.bind_right fun id => Stuck.bind_right fun _ => Stuck.bind_left ?_
  refine Stuck.lift_bind fun key hkey => ?_
  obtain ⟨owner, howner, -⟩ := Error.bind_eq_ok.1 hkey
  exact Tree.ownerName_ne_ok h hnode hparent hobject hup owner howner

/-- An alias of an inline type that cannot be named. -/
theorem documentAlias_stuck {decl : TypeAlias} (hdecl : t.decl node = .typeAlias decl)
    (hinline : ∃ inline, decl.type = some (.object inline) ∨ decl.type = some (.function inline))
    (hsize : 0 < t.size) (hup : t.isNamedFromAbove node = false) :
    Stuck (documentAlias t table node) := by
  have hself : (t.decl node).namesAnonymous = false := by rw [hdecl]; rfl
  have hname : ∀ name, t.anonymousFullName node ≠ .ok name := by
    intro name hok
    obtain ⟨_, -, hrest⟩ := Error.bind_eq_ok.1 hok
    obtain ⟨short, hshort, -⟩ := Error.bind_eq_ok.1 hrest
    exact Tree.anonymousName_ne_ok hself hup short hshort
  obtain ⟨type, htype, hresolve⟩ : ∃ type, (t.decl node).annotation? = some type ∧
      ∀ result, t.resolveExpr table node type ≠ .ok result := by
    rw [hdecl]
    obtain ⟨inline, htype | htype⟩ := hinline
    all_goals
      refine ⟨_, htype, fun result hok => ?_⟩
      unfold Tree.resolveExpr at hok
      obtain ⟨name, hfull, -⟩ := Error.bind_eq_ok.1 hok
      exact hname name hfull
  have htyped : Stuck (typeFor t table node) := by
    unfold typeFor
    obtain ⟨depth, hdepth⟩ := Nat.exists_eq_succ_of_ne_zero (Nat.ne_of_gt hsize)
    rw [hdepth, typeWithin]
    refine Stuck.lift_bind fun result hok => ?_
    rw [htype] at hok
    exact hresolve result hok
  unfold documentAlias
  refine Stuck.bind_right fun id => Stuck.bind_left ?_
  unfold addTypedName
  dsimp only
  rw [htype]
  exact Stuck.bind_left htyped.map

end Synthesis

/-! ## Modules -/

theorem TypeExpr.mem_allInlineNodes {types : List TypeExpr} {type : TypeExpr} {node : NodeId}
    (htype : type ∈ types) (hnode : node ∈ type.inlineNodes) : node ∈ TypeExpr.allInlineNodes types := by
  induction types with
  | nil => exact absurd htype List.not_mem_nil
  | cons first rest ih =>
    rcases List.mem_cons.1 htype with rfl | htype
    · exact List.mem_append_left _ hnode
    · exact List.mem_append_right _ (ih htype)

/-- The inline types that a declaration is written with stand below it. -/
theorem Tree.inline_of_mem_writtenTypes {t : Tree} (hinlined : t.Inlined) (hheirs : t.Heirs)
    {i a : NodeId} {type : TypeExpr} (htype : type ∈ (t.decl i).writtenTypes)
    (ha : a ∈ type.inlineNodes) : a < t.size ∧ t.isInline a = true ∧ t.parent? a = some i := by
  obtain ⟨nodes, hnodes, hmem⟩ : ∃ nodes, t.Inlines i 0 nodes ∧ a ∈ nodes := by
    rcases List.mem_append.1 htype with hannotation | hheritage
    · exact ⟨_, (hinlined i type (Option.mem_toList.1 hannotation)).toInlines, ha⟩
    · obtain ⟨clause, hclause, htype⟩ := List.mem_flatMap.1 hheritage
      exact ⟨_, hheirs i clause hclause, TypeExpr.mem_allInlineNodes htype ha⟩
  obtain ⟨-, hlt, hparent⟩ := hnodes.child a hmem
  refine ⟨hlt, ?_, hparent⟩
  rw [isInline, Bool.or_eq_true]
  exact hnodes.inline a hmem

/-- The inline types that annotate a declaration of a module are children of it. -/
theorem Tree.Inlined.inlineChildren {t : Tree} (h : t.Inlined) : t.InlineChildren := by
  intro i type htype a ha
  obtain ⟨-, hlt, hparent⟩ := (h i type htype).child a ha
  exact Tree.mem_children.2 ⟨hlt, hparent⟩

namespace Source.ModuleForm

variable {path : String} {form : ModuleForm} {table : SymbolTable}

/-- A module whose inline types are all named from above is documented. -/
theorem collect_ok (h : ∀ i : Nat, i < (form.toTree path).size → (form.toTree path).isInline i = true →
      (form.toTree path).isNamedFromAbove i = true) :
    ∃ comments, (form.toTree path).collect table = .ok comments := by
  have hrooted := (form.placed_toTree path).toRooted
  have hnames : (form.toTree path).Names fun _ => False := by
    refine ⟨hrooted, (form.inlined_toTree path).inlineChildren, ?_, ?_⟩
    · intro i hobject error herror
      have hinline : (form.toTree path).isInline i = true := by
        rw [Tree.isInline, hobject, Bool.true_or]
      have hsize : i < (form.toTree path).size := by
        by_contra hge
        rw [Tree.decl_of_size_le (Nat.le_of_not_lt hge)] at hobject
        cases hobject
      obtain ⟨a, ha, hnames⟩ := List.any_eq_true.1 (h i hsize hinline)
      obtain ⟨name, hname⟩ := Tree.anonymousName_ok ⟨a, List.mem_cons_of_mem i ha, hnames⟩
      rw [hname] at herror
      cases herror
    · intro p type htype hne error herror
      obtain ⟨i, hi⟩ := List.exists_mem_of_ne_nil _ hne
      obtain ⟨hsize, hinline, hparent⟩ :=
        Tree.inline_of_mem_writtenTypes (form.inlined_toTree path) (form.heirs_toTree path) htype hi
      obtain ⟨a, ha, hnames⟩ := List.any_eq_true.1 (h i hsize hinline)
      rw [hrooted.ancestors_eq hsize hparent] at ha
      obtain ⟨name, hname⟩ := Tree.anonymousName_ok ⟨a, ha, hnames⟩
      rw [hname] at herror
      cases herror
  cases hcollect : (form.toTree path).collect table with
  | error error => exact (hnames.collect table error hcollect).elim
  | ok comments => exact ⟨comments, rfl⟩

/-- A module with a declaration that cannot be documented fails because a type cannot be named. -/
theorem collect_unnamed {node : Nat} (hnode : node < (form.toTree path).size)
    (hstuck : Synthesis.Stuck (Synthesis.document (form.toTree path) table node)) :
    ∃ kind excerpt, (form.toTree path).collect table = .error (.unnamed path kind excerpt) := by
  have hrooted := (form.placed_toTree path).toRooted
  have hunnamed : ∀ i, Error.Only (fun e => ∃ kind excerpt, e = .unnamed path kind excerpt)
      ((form.toTree path).anonymousName i) := by
    intro i error herror
    rw [← form.fileName_toTree path]
    exact Tree.anonymousName_unnamed herror
  have hnames : (form.toTree path).Names fun e => ∃ kind excerpt, e = .unnamed path kind excerpt :=
    ⟨hrooted, (form.inlined_toTree path).inlineChildren, fun i _ => hunnamed i, fun i _ _ _ => hunnamed i⟩
  obtain ⟨error, herror⟩ := Synthesis.Stuck.forM (hrooted.mem_preorder.2 hnode) hstuck {}
  have hcollect : (form.toTree path).collect table = .error error := by
    rw [Tree.collect, Tree.runPass, Synthesis.documentAll, herror]
    rfl
  obtain ⟨kind, excerpt, rfl⟩ := hnames.collect table error hcollect
  exact ⟨kind, excerpt, hcollect⟩

/-- When a pass ends early. With a variable, property, function, method or parameter around every inline
type, the pass succeeds. A property or method of an object type that has none of these around it ends the
pass, and so does an alias of an inline type that has none of them around it; the failure names the
file. -/
theorem collect_succeeds_and_fails (path : String) (form : ModuleForm) (table : SymbolTable) :
    let t := form.toTree path
    ((∀ i < t.size, t.isInline i = true → t.isNamedFromAbove i = true) →
      ∃ comments, t.collect table = .ok comments) ∧
    ((∃ i < t.size, ∃ p, t.parent? i = some p ∧ t.decl p = .objectType ∧
        ((∃ decl, t.decl i = .variableDecl .member decl) ∨ ∃ decl, t.decl i = .callable .method decl) ∧
        t.isNamedFromAbove p = false) →
      ∃ kind excerpt, t.collect table = .error (.unnamed path kind excerpt)) ∧
    ((∃ i < t.size, ∃ decl, t.decl i = .typeAlias decl ∧
        (∃ inline, decl.type = some (.object inline) ∨ decl.type = some (.function inline)) ∧
        t.isNamedFromAbove i = false) →
      ∃ kind excerpt, t.collect table = .error (.unnamed path kind excerpt)) := by
  intro t
  have hrooted := (form.placed_toTree path).toRooted
  refine ⟨collect_ok, ?_, ?_⟩
  · rintro ⟨i, hi, p, hparent, hobject, hkind, hup⟩
    refine collect_unnamed hi ?_
    unfold Synthesis.document
    rcases hkind with ⟨decl, hdecl⟩ | ⟨decl, hdecl⟩
    · rw [hdecl]
      exact Synthesis.documentVariable_stuck hparent hobject hup
    · rw [hdecl]
      exact Synthesis.documentFunction_stuck hrooted hi hparent hobject hup
  · rintro ⟨i, hi, decl, hdecl, hinline, hup⟩
    refine collect_unnamed hi ?_
    unfold Synthesis.document
    rw [hdecl]
    exact Synthesis.documentAlias_stuck hdecl hinline hrooted.size_pos hup

/-- A variable of an object type, and a method that takes a function. -/
def namedModule : ModuleForm where
  items :=
    [.variable {} "at" none (some (.object {} [.property {} "x" false (some (.word "number"))])),
      .classDecl {} "Box" { members := [.method {} "each" {} { params :=
        [.mk {} { name := Word.of? "then" } (some (.function {} [] [] (.word "void")))] }] }]

/-- A class that extends another one with an object type as argument. -/
def heirModule : ModuleForm where
  items :=
    [.classDecl {} "Box"
      { parent := some ({ name := "Base", args := [.object {} [.property {} "x" false none]] }) }]

/-- An alias of a function type. -/
def aliasModule : ModuleForm where
  items := [.typeAlias {} "Then" [] (.function {} [] [] (.word "void"))]

theorem collect_succeeds_and_fails_heirModule :
    (∃ comments, (namedModule.toTree "a.ts").collect {} = .ok comments) ∧
      (∃ kind excerpt, (heirModule.toTree "b.ts").collect {} = .error (.unnamed "b.ts" kind excerpt)) ∧
      ∃ kind excerpt, (aliasModule.toTree "c.ts").collect {} = .error (.unnamed "c.ts" kind excerpt) := by
  refine ⟨?_, ?_, ?_⟩
  · exact (collect_succeeds_and_fails "a.ts" namedModule {}).1 (by decide +kernel)
  · refine (collect_succeeds_and_fails "b.ts" heirModule {}).2.1 ?_
    exact ⟨3, by decide +kernel, 2, by decide +kernel, rfl, .inl ⟨_, rfl⟩, by decide +kernel⟩
  · refine (collect_succeeds_and_fails "c.ts" aliasModule {}).2.2 ?_
    exact ⟨1, by decide +kernel, _, rfl, ⟨2, .inr rfl⟩, by decide +kernel⟩

end Source.ModuleForm

end DocBlock
