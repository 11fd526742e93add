import DocBlock.Proofs.Comment.ParamTags
import DocBlock.Proofs.Synthesis.Merging
import DocBlock.Proofs.Synthesis.OwnEntries
import DocBlock.Proofs.Synthesis.Properties

/-! # The tags of the parameters of a declaration

A signature is written parameter by parameter, and each parameter goes to the tag that is looked for or to
a new one. Where the parameters have different names and the hand-written comment documents none of them
twice, the entry of the declaration ends up with one tag for each parameter as it is declared; before it
stands the hand-written tag, if that is in a spelling that is not looked for
(`Source.ModuleForm.param_tags_of_runPass`). -/

namespace DocBlock

namespace Tree

variable {t : Tree} {table : SymbolTable} {node : NodeId} {c : Comment}

/-- The names of the parameters among some nodes. -/
def parameterNames (t : Tree) (nodes : List NodeId) : List String :=
  nodes.filterMap fun j => match t.decl j with
    | .parameter p => some p.name
    | _ => none

/-- The type of a declaration as its tag shows it. -/
def typeText (t : Tree) (table : SymbolTable) (node : NodeId) : Except Error String := do
  let result ← t.resolveTypeName table node (t.decl node).annotation? (t.typeOf? table node)
  return Synthesis.shownType (t.decl node) result.name

/-- What some tags for a parameter become when the parameter is written: those in spellings that are not
looked for stay, and behind them stands one tag with the parameter as it is declared. -/
def Describes (t : Tree) (table : SymbolTable) (j : NodeId) (p : Parameter) (before after : List Tag) :
    Prop :=
  ∃ tag type,
    after = (before.filter fun tag =>
      !Comment.isLookedFor p.name p.rest (Synthesis.isOptionalParam p) tag) ++ [tag] ∧
    tag.name = some (Synthesis.renderParam p) ∧ t.typeText table j = .ok type ∧ tag.type = some type

/-- An entry of a declaration with what its hand-written comment and its parameters make of the `param`
tags. -/
def DescribesParams (t : Tree) (table : SymbolTable) (node : NodeId) (c : Comment) : Prop :=
  ∀ j ∈ t.children node, ∀ p, t.decl j = .parameter p →
    t.Describes table j p ((Synthesis.startingComment t node).tagsFor p.name) (c.tagsFor p.name)

/-- Where every hand-written tag for a parameter is in a spelling that is looked for, there is exactly one
tag for it. -/
theorem DescribesParams.eq_singleton (h : t.DescribesParams table node c) {j : NodeId} {p : Parameter}
    (hj : j ∈ t.children node) (hp : t.decl j = .parameter p)
    (hlooked : ∀ tag ∈ (Synthesis.startingComment t node).tagsFor p.name,
      Comment.isLookedFor p.name p.rest (Synthesis.isOptionalParam p) tag = true) :
    ∃ tag type, c.tagsFor p.name = [tag] ∧ tag.name = some (Synthesis.renderParam p) ∧
      t.typeText table j = .ok type ∧ tag.type = some type := by
  obtain ⟨tag, type, htags, hname, htype, htagtype⟩ := h j hj p hp
  have hnone : ((Synthesis.startingComment t node).tagsFor p.name).filter (fun tag =>
      !Comment.isLookedFor p.name p.rest (Synthesis.isOptionalParam p) tag) = [] := by
    rw [List.filter_eq_nil_iff]
    intro tag htag
    rw [hlooked tag htag]
    exact Bool.false_ne_true
  rw [hnone, List.nil_append] at htags
  exact ⟨tag, type, htags, hname, htype, htagtype⟩

theorem DescribesParams.congr {c' : Comment} (h : t.DescribesParams table node c)
    (hsame : ∀ name, c'.tagsFor name = c.tagsFor name) : t.DescribesParams table node c' := by
  intro j hj p hp
  rw [hsame]
  exact h j hj p hp

end Tree

namespace Synthesis

open Comment (Spares)

variable {t : Tree} {table : SymbolTable} {id : Nat} {node : NodeId}

/-! ## One signature -/

theorem typeText_of_typeWithin {depth : Nat} {type : String} {p p' : Pass}
    (hrun : (typeWithin t table depth node).run p = .ok (type, p')) : t.typeText table node = .ok type := by
  cases depth with
  | zero =>
    unfold typeWithin at hrun
    cases hrun
  | succ depth =>
    unfold typeWithin at hrun
    obtain ⟨result, q, hlift, hrest⟩ := run_bind_eq_ok.1 hrun
    obtain ⟨hresult, -⟩ := run_lift_eq_ok.1 hlift
    obtain ⟨_, q', -, hrest⟩ := run_bind_eq_ok.1 hrest
    obtain ⟨_, q'', -, hlast⟩ := run_bind_eq_ok.1 hrest
    rw [Tree.typeText, hresult]
    cases hlast
    rfl

/-- What the parameters among some nodes make of the tags for them, and that they leave the tags for all
other names alone. -/
structure WritesParams (t : Tree) (table : SymbolTable) (nodes : List NodeId) (c c' : Comment) : Prop where
  others : ∀ name, name ∉ t.parameterNames nodes → c'.tagsFor name = c.tagsFor name
  params : ∀ j ∈ nodes, ∀ p, t.decl j = .parameter p → (c.tagsFor p.name).length ≤ 1 →
    t.Describes table j p (c.tagsFor p.name) (c'.tagsFor p.name)

theorem addParam_writesParams (ht : t.Placed) (node : NodeId) :
    Edits id (WritesParams t table [node]) (addParam t (typeFor t table) id node) := by
  unfold addParam
  split
  · rename_i p hdecl
    have hplain := ht.plain node p hdecl
    have hnames : t.parameterNames [node] = [p.name] := by
      simp [Tree.parameterNames, hdecl]
    refine Edits.quiet_bind_of (typeFor_quiet t table node) (fun _ _ _ => typeText_of_typeWithin)
      fun type htype => Edits.edit fun c => ?_
    have hfor : ∀ tag : Tag, tag.kind = "param" → Comment.isTagFor p.name
        { tag with
          name := some (renderParam p)
          type := some type
          description := (t.documentation? node).or tag.description } = true := by
      intro tag hkind
      rw [Comment.isTagFor_iff, Option.map_some, bareParamName_renderParam hplain]
      exact ⟨hkind, rfl⟩
    constructor
    · intro name hname
      rw [hnames, List.mem_singleton] at hname
      exact Comment.tagsFor_putParam_of_ne hplain hname hfor c _ _
    · intro j hj q hq hone
      obtain rfl := List.mem_singleton.1 hj
      obtain rfl : p = q := Decl.parameter.inj (hdecl.symm.trans hq)
      obtain ⟨tag, htags⟩ := Comment.exists_tagsFor_putParam hplain hone hfor p.rest (isOptionalParam p)
      exact ⟨_, type, htags, rfl, htype, rfl⟩
  · rename_i hother
    refine (Quiet.pure ()).edits fun c => ⟨fun _ _ => rfl, ?_⟩
    intro j hj p hp
    rw [List.mem_singleton.1 hj] at hp
    exact absurd hp (hother p)

/-- Parameters with different names do not meddle with each other. -/
theorem addParams_writesParams (ht : t.Placed) {nodes : List NodeId}
    (hdistinct : (t.parameterNames nodes).Nodup) :
    Edits id (WritesParams t table nodes) (nodes.forM (addParam t (typeFor t table) id)) := by
  induction nodes with
  | nil =>
    exact (Quiet.pure ()).edits fun c => ⟨fun _ _ => rfl, fun j hj => absurd hj List.not_mem_nil⟩
  | cons node nodes ih =>
    have happend : t.parameterNames (node :: nodes) = t.parameterNames [node] ++ t.parameterNames nodes :=
      List.filterMap_append (l := [node])
    rw [happend, List.nodup_append'] at hdistinct
    obtain ⟨-, hrest, hdisjoint⟩ := hdistinct
    have hnamed : ∀ {nodes : List NodeId} {j : NodeId} {p : Parameter}, j ∈ nodes →
        t.decl j = .parameter p → p.name ∈ t.parameterNames nodes := by
      intro nodes j p hj hp
      exact List.mem_filterMap.2 ⟨j, hj, by rw [hp]⟩
    show Edits id _ (addParam t (typeFor t table) id node >>= fun _ =>
      nodes.forM (addParam t (typeFor t table) id))
    refine (addParam_writesParams ht node).bind (fun _ => ih hrest) ?_
    intro c c' c'' hfirst hsecond
    constructor
    · intro name hname
      rw [happend, List.mem_append, not_or] at hname
      rw [hsecond.others name hname.2, hfirst.others name hname.1]
    · intro j hj p hp hone
      rcases List.mem_cons.1 hj with rfl | hj
      · -- The parameters behind the first one have other names.
        have hname := hnamed (List.mem_singleton_self j) hp
        rw [hsecond.others p.name (hdisjoint hname)]
        exact hfirst.params j (List.mem_singleton_self j) p hp hone
      · have hsame := hfirst.others p.name fun hname => hdisjoint hname (hnamed hj hp)
        rw [← hsame] at hone ⊢
        exact hsecond.params j hj p hp hone

theorem parameterNames_of_signature? {s : Signature} (hs : t.signature? node = some s) :
    t.parameterNames s.parameters = t.parameterNames (t.children node) := by
  rw [Tree.signature?] at hs
  split at hs
  · obtain rfl := Option.some.inj hs
    rw [Tree.parameterNames, Tree.parameterNames, List.filterMap_filter]
    congr 1
    funext j
    cases t.decl j <;> rfl
  · cases hs

/-- What a signature makes of the tags for its parameters. The prose and the result are written beside
them. -/
theorem addFromSignature_writesParams (ht : t.Placed) {s : Signature} (hs : t.signature? node = some s)
    (hdistinct : (t.parameterNames (t.children node)).Nodup) :
    Edits id (WritesParams t table s.parameters) (addFromSignature t table id s) := by
  rw [← parameterNames_of_signature? hs] at hdistinct
  have hprose : ∀ d : String, Edits id (Spares []) (edit id fun c => { c with description := some d }) :=
    fun d => Edits.edit fun c => .description [] c (some d)
  have hresult : ∀ type : String, Edits id (Spares ["returns"])
      (edit id fun c => c.put "returns" none fun tag => { tag with type := some type }) := by
    intro type
    refine Edits.edit fun c => .put ?_ c "returns" none
    exact fun _ => rfl
  unfold addFromSignature
  rw [addSignature_eq]
  refine Edits.bind (S := Spares []) (T := WritesParams t table s.parameters) ?_ (fun _ => Edits.bind
    (T := Spares ["returns"]) (addParams_writesParams ht hdistinct) (fun _ => ?_) ?_) ?_
  · split
    · exact hprose _
    · exact (Quiet.pure ()).edits (.refl _)
  · split
    · exact Edits.quiet_bind (typeFor_quiet t table _) hresult
    · exact (Quiet.pure ()).edits (.refl _)
  · intro c c' c'' hparams hspares
    have hsame := hspares.tagsFor (by decide)
    refine ⟨fun name hname => (hsame name).trans (hparams.others name hname), ?_⟩
    intro j hj p hp hone
    rw [hsame]
    exact hparams.params j hj p hp hone
  · intro c c' c'' hspares hparams
    have hsame := hspares.tagsFor List.not_mem_nil
    refine ⟨fun name hname => (hparams.others name hname).trans (hsame name), ?_⟩
    intro j hj p hp hone
    rw [← hsame] at hone ⊢
    exact hparams.params j hj p hp hone

/-! ## One declaration -/

/-- A step that leaves the tags for parameters in an entry as they are. -/
def SparesParams (id : Nat) (m : Synthesis Unit) : Prop :=
  ∀ p p', id < p.comments.size → m.run p = .ok ((), p') →
    id < p'.comments.size ∧ ∀ name, (p'.comments.get id).tagsFor name = (p.comments.get id).tagsFor name

theorem SparesParams.pure : SparesParams id (Pure.pure ()) := by
  intro p p' hid hrun
  cases hrun
  exact ⟨hid, fun _ => rfl⟩

theorem SparesParams.bind {m rest : Synthesis Unit} (hm : SparesParams id m)
    (hrest : SparesParams id rest) : SparesParams id (m >>= fun _ => rest) := by
  intro p p' hid hrun
  obtain ⟨q, hfirst, hsecond⟩ := run_seq_eq_ok.1 hrun
  obtain ⟨hq, hsame⟩ := hm p q hid hfirst
  obtain ⟨hp', hsame'⟩ := hrest q p' hq hsecond
  exact ⟨hp', fun name => (hsame' name).trans (hsame name)⟩

theorem Fills.sparesParams (t : Tree) (table : SymbolTable) {m : Synthesis Unit} {ks : List String}
    {L : List NodeId → Prop} (hm : Fills t table id (Spares ks) L m) (hks : "param" ∉ ks) : SparesParams id m := by
  intro p p' hid hrun
  obtain ⟨c, links, names, hspares, -, -, rfl⟩ := hm p () p' hid hrun
  have hfilled : id < (p.fill id c).comments.size := by
    rw [Pass.size_fill]
    exact hid
  refine ⟨by rw [Pass.size_link]; omega, ?_⟩
  rw [Pass.get_link_of_lt hfilled, Pass.get_fill_self hid]
  exact hspares.tagsFor hks

theorem addVariation_sparesParams : SparesParams id (addVariation t id node) := by
  intro p p' hid hrun
  obtain ⟨key, -, rfl⟩ := run_addVariation hid hrun
  have hsight : id < (p.sight key id (p.comments.get id)).comments.size := by
    rw [Pass.size_sight]
    exact hid
  have hspares : ∀ number, Spares ["variation"] (p.comments.get id) ((p.comments.get id).numbered number) := by
    intro number
    cases number with
    | none => exact .refl _ _
    | some n =>
      refine .put ?_ _ "variation" none
      exact fun _ => rfl
  refine ⟨by rw [Pass.size_fill]; exact hsight, ?_⟩
  rw [Pass.get_fill_self hsight]
  exact (hspares _).tagsFor (by decide)

/-- Starts the entry of a declaration and writes its signature, behind what comes first. -/
def upToSignature (t : Tree) (table : SymbolTable) (node : NodeId) (first : Nat → Synthesis Unit)
    (s : Signature) : Synthesis Nat := do
  let id ← addOwn t node
  first id
  addFromSignature t table id s
  return id

/-- A function, method or constructor is documented around its signature. What stands before and behind it
is not about parameters. -/
theorem document_eq_signature {role : CallableRole} {decl : Callable} {s : Signature}
    (hdecl : t.decl node = .callable role decl)
    (hrole : role ∈ [CallableRole.function, .method, .constructor]) (hs : t.signature? node = some s) :
    ∃ first last : Nat → Synthesis Unit,
      document t table node = upToSignature t table node first s >>= last ∧
      ∀ id, SparesParams id (first id) ∧ SparesParams id (last id) := by
  have hfunction : ∃ first last : Nat → Synthesis Unit,
      documentFunction t table node = upToSignature t table node first s >>= last ∧
      ∀ id, SparesParams id (first id) ∧ SparesParams id (last id) := by
    refine ⟨fun id => do
        addName t id "function" node
        addVariation t id node
        addGeneric t id node,
      fun id => do
        addParent t id node
        addModifier t id node, ?_, fun id => ⟨?_, ?_⟩⟩
    · simp only [documentFunction, upToSignature, hs, bind_assoc, pure_bind]
    · exact (Fills.sparesParams t table (addName_fills "function") (by decide)).bind
        (addVariation_sparesParams.bind (Fills.sparesParams t table addGeneric_fills (by decide)))
    · exact (Fills.sparesParams t table addParent_fills (by decide)).bind
        (Fills.sparesParams t table addModifier_fills (by decide))
  rw [document, hdecl]
  simp only [List.mem_cons, List.not_mem_nil, or_false] at hrole
  rcases hrole with rfl | rfl | rfl
  · exact hfunction
  · exact hfunction
  · refine ⟨fun id => do
        ensure id "ctor"
        addVariation t id node
        addParent t id node, fun _ => pure (), ?_, fun id => ⟨?_, .pure⟩⟩
    · simp only [documentConstructor, upToSignature, hs, bind_assoc, pure_bind, bind_pure_unit]
    · exact (Fills.sparesParams t table (ensure_fills "ctor" none) (by decide)).bind
        (addVariation_sparesParams.bind (Fills.sparesParams t table addParent_fills (by decide)))

theorem exists_signature? {role : CallableRole} {decl : Callable} (hdecl : t.decl node = .callable role decl) :
    ∃ s, t.signature? node = some s := by
  rw [Tree.signature?, hdecl]
  exact ⟨_, rfl⟩

theorem mem_parameters_of_signature? {s : Signature} (hs : t.signature? node = some s) {j : NodeId}
    {p : Parameter} (hj : j ∈ t.children node) (hp : t.decl j = .parameter p) : j ∈ s.parameters := by
  rw [Tree.signature?] at hs
  split at hs
  · obtain rfl := Option.some.inj hs
    exact List.mem_filter.2 ⟨hj, by rw [hp]; rfl⟩
  · cases hs

/-- The entry of a declaration once its signature has been written. -/
theorem describes_of_signature (ht : t.Placed) {s : Signature} (hs : t.signature? node = some s)
    (hdistinct : (t.parameterNames (t.children node)).Nodup)
    (hone : (startingComment t node).paramNames.Nodup) {first : Nat → Synthesis Unit}
    (hspares : ∀ id, SparesParams id (first id)) {start after : Pass}
    (hrun : (upToSignature t table node first s).run start = .ok (id, after)) :
    id = start.comments.size ∧ id < after.comments.size ∧
      t.DescribesParams table node (after.comments.get id) := by
  unfold upToSignature at hrun
  obtain ⟨new, q, hstart, hrest⟩ := run_bind_eq_ok.1 hrun
  obtain ⟨rfl, rfl⟩ := run_newEntry hstart
  obtain ⟨⟨⟩, before, hfirst, hrest⟩ := run_bind_eq_ok.1 hrest
  obtain ⟨⟨⟩, q, hsignature, hlast⟩ := run_bind_eq_ok.1 hrest
  obtain ⟨rfl, rfl⟩ : id = start.comments.size ∧ after = q := by
    cases hlast
    exact ⟨rfl, rfl⟩
  obtain ⟨hbefore, hsame⟩ := hspares _ _ _ (start.lt_size_new _ _ _ _) hfirst
  rw [Pass.get_new] at hsame
  change ∀ name, _ = (startingComment t node).tagsFor name at hsame
  have hleads := addFromSignature_writesParams ht hs hdistinct _ _ _ hsignature
  have hwrites := (hleads.entries _ hbefore).1 rfl
  refine ⟨rfl, Nat.lt_of_lt_of_le hbefore hleads.size_le, fun j hj p hp => ?_⟩
  have hle := Comment.length_tagsFor_le hone p.name
  rw [← hsame] at hle ⊢
  exact hwrites.params j (mem_parameters_of_signature? hs hj hp) p hp hle

theorem describes_of_document (ht : t.Placed) {role : CallableRole} {decl : Callable}
    (hdecl : t.decl node = .callable role decl)
    (hrole : role ∈ [CallableRole.function, .method, .constructor])
    (hdistinct : (t.parameterNames (t.children node)).Nodup)
    (hone : (startingComment t node).paramNames.Nodup) {start finish : Pass}
    (hrun : (document t table node).run start = .ok ((), finish)) :
    t.DescribesParams table node (finish.comments.get start.comments.size) := by
  obtain ⟨s, hs⟩ := exists_signature? hdecl
  obtain ⟨first, last, hdocument, hspares⟩ := document_eq_signature hdecl hrole hs
  rw [hdocument] at hrun
  obtain ⟨id, after, hsignature, hlast⟩ := run_bind_eq_ok.1 hrun
  obtain ⟨rfl, hafter, hdescribes⟩ :=
    describes_of_signature ht hs hdistinct hone (fun id => (hspares id).1) hsignature
  exact hdescribes.congr ((hspares _).2 _ _ hafter hlast).2

end Synthesis

/-! ## The whole pass -/

/-- Declarations that are documented later write nothing but properties into an entry that is not merged. -/
theorem Tree.Documented.spares {t : Tree} {table : SymbolTable} {other node : NodeId} {p p' : Pass} {i : Nat}
    (h : t.Documented table other p p') (hp : p.Enrolled t) (hown : p.origins[i]? = some (.own node))
    (hmerged : t.isMerged node = false) :
    Comment.Spares ["property"] (p.comments.get i) (p'.comments.get i) := by
  have hi : i < p.comments.size := hp.aligned.lt_size hown
  have hkept : ∀ {c : Comment}, c = p.comments.get i → Comment.Spares ["property"] (p.comments.get i) c := by
    rintro _ rfl
    exact .refl _ _
  cases h with
  | passed => exact .refl _ _
  | @property objectType k name owner type =>
    rw [Pass.get_link_of_lt (by rw [Pass.size_fill]; exact hi)]
    by_cases hk : k = i
    · subst hk
      rw [Pass.get_fill_self hi]
      refine .put ?_ _ "property" _
      exact fun _ => rfl
    · exact hkept (Pass.get_fill_of_ne hk _)
  | plain => exact hkept (Pass.get_link_of_lt hi)
  | numbered _ _ hcounts => exact hkept (hcounts.get_of_lt hi)
  | collapsed _ hcounts =>
    have hlinked := Pass.origins_link_of_some hown [(.own other, Comment.empty)] []
    have hsize : i < (p.link [(.own other, Comment.empty)] []).comments.size := by
      rw [Pass.size_link]
      omega
    exact hkept ((hcounts.keeps hsize hlinked).1.trans (Pass.get_link_of_lt hi))
  | @merged c names q key _ _ hcounts =>
    have hlinked := Pass.origins_link_of_some hown [(.own other, c)] []
    have hsize : i < (p.link [(.own other, c)] []).comments.size := by
      rw [Pass.size_link]
      omega
    obtain ⟨hget, horigin⟩ := hcounts.keeps hsize hlinked
    have hq := hcounts.enrolled (hp.link _ _)
    -- What is canonical belongs to a declaration that is merged.
    have hcanonical : ∀ key, (key, i) ∉ q.comments.canonical := by
      intro key hmem
      obtain ⟨n, hn, hmergedn⟩ := hq.canonical key i hmem
      rw [horigin] at hn
      cases hn
      rw [hmerged] at hmergedn
      cases hmergedn
    have hunited : (q.unite key p.comments.size).comments.get i = q.comments.get i :=
      (q.comments.enroll_merges key p.comments.size).entries i (hq.aligned.lt_size horigin) (Nat.ne_of_lt hi)
        hcanonical
    exact hkept (hunited.trans (hget.trans (Pass.get_link_of_lt hi)))

/-- A declaration that is counted by an entry of its own has got that entry. -/
theorem Tree.Documented.origins_own {t : Tree} {table : SymbolTable} {node : NodeId} {p p' : Pass}
    (h : t.Documented table node p p') (hp : p.Aligned)
    (hcounted : t.counted node = [(.own node, node)]) :
    p'.origins[p.comments.size]? = some (.own node) := by
  cases h with
  | passed hnone => simp [hnone] at hcounted
  | property hnone => simp [hnone] at hcounted
  | plain => exact hp.origins_new _ _ _ _
  | @numbered names _ _ _ hcounts =>
    obtain ⟨key, seen, c, links, -, -, -, rfl⟩ := hcounts
    rw [← p.size_sight key p.comments.size seen]
    exact (hp.sight key p.comments.size seen).origins_new (.own node) c links names
  | collapsed _ hcounts => exact (hcounts.keeps (p.lt_size_new _ _ _ _) (hp.origins_new _ _ _ _)).2
  | merged _ _ hcounts => exact (hcounts.keeps (p.lt_size_new _ _ _ _) (hp.origins_new _ _ _ _)).2

/-- What stands about parameters in the entry of a function, method or constructor when it is documented
stands there in the end. -/
theorem Tree.describesParams_of_runPass {t : Tree} {table : SymbolTable} {node : NodeId} {pass : Pass}
    {role : CallableRole} {decl : Callable} (hp : t.Placed) (ht : t.Inlined)
    (hdecl : t.decl node = .callable role decl)
    (hrole : role ∈ [CallableRole.function, .method, .constructor])
    (hdistinct : (t.parameterNames (t.children node)).Nodup)
    (hone : (Synthesis.startingComment t node).paramNames.Nodup) (hrun : t.runPass table = .ok pass) :
    ∃ id, (∀ i : Nat, pass.origins[i]? = some (.own node) ↔ i = id) ∧
      t.DescribesParams table node (pass.comments.get id) := by
  have hr := hp.toRooted
  obtain ⟨hcounted, hmerged, hown⟩ : t.counted node = [(.own node, node)] ∧ t.isMerged node = false ∧
      t.hasOwnTag node = true := by
    simp only [List.mem_cons, List.not_mem_nil, or_false] at hrole
    rcases hrole with rfl | rfl | rfl <;> simp [counted, isMerged, hasOwnTag, ownTag?, hdecl]
  have hnode : node < t.size := by
    by_contra hout
    rw [t.decl_of_size_le (Nat.le_of_not_lt hout)] at hdecl
    cases hdecl
  obtain ⟨done, rest, hsplit⟩ := List.append_of_mem (hr.mem_preorder.2 hnode)
  have hall := Synthesis.run_documentAll_of_runPass hrun
  rw [hsplit, Synthesis.run_documentAll_append] at hall
  obtain ⟨start, hbefore, hall⟩ := hall
  obtain ⟨finish, hdocument, hafter⟩ := Synthesis.run_documentAll_cons.1 hall
  obtain ⟨hstart, -⟩ := unites_documentAll hr ht hsplit hbefore
  have hdocumented := Synthesis.documented_of_run hr ht hnode hdocument
  have hdescribes := Synthesis.describes_of_document hp hdecl hrole hdistinct hone hdocument
  -- Later declarations write no `param` tags there.
  have hsplit' : t.preorder = done ++ [node] ++ (rest ++ []) := by simpa using hsplit
  have hlast := Synthesis.documentAll_induction hr ht
    (J := fun _ p => p.Enrolled t ∧ p.origins[start.comments.size]? = some (.own node) ∧
      t.DescribesParams table node (p.comments.get start.comments.size)) ?_ hsplit'
    ⟨hdocumented.enrolled hstart, hdocumented.origins_own hstart.aligned hcounted, hdescribes⟩ hafter
  · obtain ⟨-, horigin, hdescribed⟩ := hlast
    obtain ⟨id, hid⟩ := (documents_runPass hp hrun).exists_position hr.nodup_preorder
      (hr.mem_preorder.2 hnode) hown
    rw [(hid _).1 horigin] at hdescribed
    exact ⟨id, hid, hdescribed⟩
  · rintro - other more p p' - ⟨henrolled, horigin, hdescribed⟩ hother
    have hlt := (List.getElem?_eq_some_iff.1 horigin).1
    refine ⟨hother.enrolled henrolled, ?_, hdescribed.congr fun name => ?_⟩
    · rw [← horigin]
      exact List.prefix_iff_getElem?.1 hother.origins_prefix _ hlt ▸ (List.getElem?_eq_getElem hlt).symm
    · exact (hother.spares henrolled horigin hmerged).tagsFor (by decide) name

/-- The `param` tags of functions, methods and constructors. When the signature has been written, and still
in the end, there is for each parameter one tag with the parameter as it is declared and its type; before it
stands the hand-written tag for the parameter, if that is in a spelling that is not looked for. -/
theorem Source.ModuleForm.param_tags_of_runPass (form : ModuleForm) (path : String) (table : SymbolTable) :
    let t := form.toTree path
    ∀ (node : NodeId) (role : CallableRole) (decl : Callable), t.decl node = .callable role decl →
      role ∈ [CallableRole.function, .method, .constructor] →
      (t.parameterNames (t.children node)).Nodup → (Synthesis.startingComment t node).paramNames.Nodup →
      (∃ s first last, t.signature? node = some s ∧
        Synthesis.document t table node = Synthesis.upToSignature t table node first s >>= last ∧
        ∀ start id after, (Synthesis.upToSignature t table node first s).run start = .ok (id, after) →
          t.DescribesParams table node (after.comments.get id)) ∧
      ∀ pass, t.runPass table = .ok pass →
        ∃ id, (∀ i : Nat, pass.origins[i]? = some (.own node) ↔ i = id) ∧
          t.DescribesParams table node (pass.comments.get id) := by
  intro t node role decl hdecl hrole hdistinct hone
  have hp : t.Placed := placed_toTree path form
  obtain ⟨s, hs⟩ := Synthesis.exists_signature? hdecl
  obtain ⟨first, last, hdocument, hspares⟩ := Synthesis.document_eq_signature hdecl hrole hs
  refine ⟨⟨s, first, last, hs, hdocument, fun start id after hrun => ?_⟩, fun pass hrun => ?_⟩
  · exact (Synthesis.describes_of_signature hp hs hdistinct hone (fun id => (hspares id).1) hrun).2.2
  · exact Tree.describesParams_of_runPass hp (inlined_toTree path form) hdecl hrole hdistinct hone hrun

/-- A function whose comment puts brackets around the names of both parameters. Only the second one may be
left out. -/
def Source.labelModule : Source.ModuleForm where
  items :=
    [.function { doc := some "/**\n * @param [x] First.\n * @param [y] Second.\n */" } "label"
      { params :=
          [.mk {} { name := Word.of? "x" } (some (.word "number")),
            .mk {} { name := Word.of? "y", optional := true } (some (.word "string"))] }]

/-- The hand-written tag for the second parameter is looked for. -/
theorem Source.ModuleForm.param_tags_of_runPass_labelModule :
    let t := labelModule.toTree "label.ts"
    ∃ pass id tag, t.runPass {} = .ok pass ∧ (∀ i : Nat, pass.origins[i]? = some (.own 1) ↔ i = id) ∧
      (pass.comments.get id).tagsFor "y" = [tag] ∧ tag.name = some "[y]" ∧ tag.type = some "string" := by
  intro t
  obtain ⟨pass, hrun⟩ := Error.exists_of_isOk (by decide +kernel : (t.runPass {}).isOk = true)
  obtain ⟨-, hpass⟩ := param_tags_of_runPass labelModule "label.ts" {} 1 .function { name := some "label" } rfl
    List.mem_cons_self (by decide +kernel) (by decide +kernel)
  obtain ⟨id, hid, hdescribes⟩ := hpass pass hrun
  obtain ⟨tag, type, htags, hname, htype, htagtype⟩ :=
    hdescribes.eq_singleton (j := 3) (p := { name := "y", type := some (.intrinsic "string"), optional := true })
      (by decide +kernel) rfl (by decide +kernel)
  have hstring : t.typeText {} 3 = .ok "string" := by decide +kernel
  obtain rfl := Except.ok.inj (hstring.symm.trans htype)
  refine ⟨pass, id, tag, hrun, hid, htags, hname.trans ?_, htagtype⟩
  decide +kernel

/-- The hand-written tag for the first parameter is not looked for, and stays beside another one. -/
theorem Source.ModuleForm.param_twice_labelModule :
    let t := labelModule.toTree "label.ts"
    (t.parameterNames (t.children 1)).Nodup ∧ (Synthesis.startingComment t 1).paramNames.Nodup ∧
      ∃ pass, t.runPass {} = .ok pass ∧ pass.origins[0]? = some (.own 1) ∧
        (pass.comments.get 0).tagsFor "x" =
          [{ kind := "param", name := some "[x]", description := some "First." },
            { kind := "param", name := some "x", type := some "number", description := some "First." }] := by
  intro t
  refine ⟨by decide +kernel, by decide +kernel, ?_⟩
  obtain ⟨pass, hrun⟩ := Error.exists_of_isOk (by decide +kernel : (t.runPass {}).isOk = true)
  have hentry : (t.runPass {}).toOption.map (fun p => (p.origins[0]?, (p.comments.get 0).tagsFor "x")) =
      some (some (.own 1), [{ kind := "param", name := some "[x]", description := some "First." },
        { kind := "param", name := some "x", type := some "number", description := some "First." }]) := by
    decide +kernel
  rw [hrun] at hentry
  obtain ⟨horigin, htags⟩ := Prod.mk.inj (Option.some.inj hentry)
  exact ⟨pass, hrun, horigin, htags⟩

end DocBlock
