import DocBlock.Proofs.Naming.Fitting
import DocBlock.Proofs.Synthesis.OwnEntries
import DocBlock.Proofs.Synthesis.Steps

/-! # Steps that keep entries fitting

Every text that a step writes into an entry comes from a hand-written comment, from a declaration or from
a name put together from the texts of declarations. Where all texts of the declarations fit on a line,
each step keeps the entries fitting (`Fitting`), and the name of a type that it gives fits as well
(`Yields`). -/

namespace DocBlock

/-! ## Writing into tags -/

namespace Tag

variable {tag : Tag} {type description : Option String}

theorem Fits.rename (h : tag.Fits) {text : String} (htext : FitsLine text.toList) :
    ({ tag with name := some text } : Tag).Fits :=
  ⟨h.kind, fits_some htext, h.type, h.description⟩

theorem Fits.retype (h : tag.Fits) {text : String} (htext : FitsLine text.toList) :
    ({ tag with type := some text } : Tag).Fits :=
  ⟨h.kind, h.name, fits_some htext, h.description⟩

theorem Fits.retypeOr (h : tag.Fits) (htype : ∀ text ∈ type, FitsLine text.toList) :
    ({ tag with type := type.or tag.type } : Tag).Fits := by
  refine ⟨h.kind, h.name, fun text htext => ?_, h.description⟩
  rcases Option.or_eq_some_iff.1 htext with hnew | ⟨-, hold⟩
  · exact htype text hnew
  · exact h.type text hold

theorem Fits.describe (h : tag.Fits) (hdescription : ∀ d ∈ description, ¬ blockEnd <:+: d.toList) :
    ({ tag with description := description.or tag.description } : Tag).Fits := by
  refine ⟨h.kind, h.name, h.type, fun d hd => ?_⟩
  rcases Option.or_eq_some_iff.1 hd with hnew | ⟨-, hold⟩
  · exact hdescription d hnew
  · exact h.description d hold

end Tag

theorem Comment.Fits.describe {c : Comment} (h : c.Fits) {text : String}
    (htext : ¬ blockEnd <:+: text.toList) : ({ c with description := some text } : Comment).Fits := by
  refine ⟨?_, h.tags⟩
  rintro _ ⟨⟩
  exact htext

/-! ## Hand-written comments -/

namespace Tree

variable {t : Tree} {i : NodeId}

theorem fits_handWritten? {c : Comment} (h : t.handWritten? i = some c) : c.Fits := by
  obtain ⟨raw, -, rfl⟩ := Option.map_eq_some_iff.1 h
  exact Comment.fits_read raw.toList

/-- What documents a declaration holds no end of a block. -/
theorem not_blockEnd_documentation? : ∀ d ∈ t.documentation? i, ¬ blockEnd <:+: d.toList := by
  intro d hd
  rw [documentation?] at hd
  split at hd
  · simp only [Option.bind_eq_bind, Option.mem_def, Option.bind_eq_some_iff] at hd
    obtain ⟨p, -, c, hc, tag, htag, hd⟩ := hd
    exact ((fits_handWritten? hc).tags tag (List.mem_of_find?_eq_some htag)).description d
      (Option.filter_eq_some_iff.1 hd).1
  · simp only [Option.bind_eq_bind, Option.mem_def, Option.bind_eq_some_iff] at hd
    obtain ⟨c, hc, hd⟩ := hd
    exact (fits_handWritten? hc).description d (Option.filter_eq_some_iff.1 hd).1

theorem not_blockEnd_signature? {s : Signature} (hs : t.signature? i = some s) :
    ∀ d ∈ s.documentation, ¬ blockEnd <:+: d.toList := by
  rw [signature?] at hs
  split at hs
  · obtain rfl := Option.some.inj hs
    exact not_blockEnd_documentation?
  · cases hs

end Tree

/-! ## Passes -/

/-- A pass whose entries fit. -/
def Pass.Fits (p : Pass) : Prop :=
  ∀ c ∈ p.comments.entries, c.Fits

namespace Pass

variable {p : Pass} {id : Nat} {c : Comment}

theorem Fits.get (h : p.Fits) (i : Nat) : (p.comments.get i).Fits := by
  rw [Collection.get, List.getD_eq_getElem?_getD]
  cases hentry : p.comments.entries[i]? with
  | none => exact Comment.fits_empty
  | some c => exact h c (List.mem_of_getElem? hentry)

theorem Fits.modify (h : p.Fits) {f : Comment → Comment} (hf : ∀ c, c.Fits → (f c).Fits) :
    ∀ c ∈ (p.comments.modify id f).entries, c.Fits :=
  forall_mem_modify h hf id

theorem Fits.unite (h : p.Fits) (key : DeclKey) (id : Nat) : (p.unite key id).Fits := by
  rcases p.comments.enroll_cases key id with henroll | henroll | ⟨first, -, henroll⟩
  · rw [Pass.Fits, Pass.unite, henroll]
    exact h
  · rw [Pass.Fits, Pass.unite, henroll]
    exact h
  · rw [Pass.Fits, Pass.unite, henroll]
    show ∀ c ∈ (p.comments.merge id first).entries, c.Fits
    rw [Collection.merge]
    split
    · exact h
    · -- The entry is merged into the first one, and is empty afterwards.
      have hmerged : ({ p with comments := p.comments.modify first (p.comments.get id).mergeInto } :
          Pass).Fits := h.modify fun _ => (h.get id).mergeInto
      exact hmerged.modify fun _ _ => Comment.fits_empty

end Pass

namespace Synthesis

variable {α β : Type} {Q : α → Prop} {Q' : β → Prop} {m : Synthesis α} {f : α → Synthesis β} {id : Nat}
  {kind : String} {name : Option String}

/-- A step that keeps the entries of a pass fitting. -/
def Fitting (m : Synthesis α) : Prop :=
  ∀ p a p', p.Fits → m.run p = .ok (a, p') → p'.Fits

/-- A step that keeps the entries of a pass fitting and gives a result that satisfies `Q`. -/
def Yields (Q : α → Prop) (m : Synthesis α) : Prop :=
  ∀ p a p', p.Fits → m.run p = .ok (a, p') → p'.Fits ∧ Q a

namespace Fitting

theorem pure (a : α) : Fitting (Pure.pure a) := by
  intro p a' p' hp hrun
  cases hrun
  exact hp

theorem bind (hm : Fitting m) (hf : ∀ a, Fitting (f a)) : Fitting (m >>= f) := by
  intro p b p'' hp hrun
  obtain ⟨a, p', hfirst, hsecond⟩ := run_bind_eq_ok.1 hrun
  exact hf a p' b p'' (hm p a p' hp hfirst) hsecond

theorem lift_bind {e : Except Error α} (hf : ∀ a, e = .ok a → Fitting (f a)) :
    Fitting (liftM e >>= f) := by
  intro p b p'' hp hrun
  obtain ⟨a, p', hlift, hrest⟩ := run_bind_eq_ok.1 hrun
  obtain ⟨ha, rfl⟩ := run_lift_eq_ok.1 hlift
  exact hf a ha _ b p'' hp hrest

theorem get_bind {g : Pass → Synthesis β} (hg : ∀ p : Pass, p.Fits → Fitting (g p)) :
    Fitting (get >>= g) := by
  intro p b p'' hp hrun
  obtain ⟨_, _, hget, hrest⟩ := run_bind_eq_ok.1 hrun
  cases hget
  exact hg p hp p b p'' hp hrest

theorem forM {xs : List α} {g : α → Synthesis Unit} (hg : ∀ x ∈ xs, Fitting (g x)) :
    Fitting (xs.forM g) := by
  induction xs with
  | nil => exact .pure ()
  | cons x xs ih =>
    show Fitting (g x >>= fun _ => xs.forM g)
    exact (hg x List.mem_cons_self).bind fun _ => ih fun y hy => hg y (List.mem_cons_of_mem x hy)

theorem edit {g : Comment → Comment} (hg : ∀ c, c.Fits → (g c).Fits) :
    Fitting (Synthesis.edit id g) := by
  intro p a p' hp hrun
  cases hrun
  exact hp.modify hg

theorem put {g : Tag → Tag} (hkind : FitsLine kind.toList) (hname : ∀ n ∈ name, FitsLine n.toList)
    (hg : ∀ tag, tag.Fits → (g tag).Fits) :
    Fitting (Synthesis.edit id fun c => c.put kind name g) :=
  .edit fun _ hc => hc.put hkind hname hg

theorem setName {text : String} (hkind : FitsLine kind.toList) (htext : FitsLine text.toList) :
    Fitting (Synthesis.setName id kind text) :=
  .put hkind fits_none fun _ htag => htag.rename htext

theorem ensure (hkind : FitsLine kind.toList) (hname : ∀ n ∈ name, FitsLine n.toList) :
    Fitting (Synthesis.ensure id kind name) :=
  .put hkind hname fun _ htag => htag

theorem newEntry {origin : EntryOrigin} {c : Comment} (hc : c.Fits) :
    Fitting (Synthesis.newEntry origin c) := by
  intro p a p' hp hrun
  cases hrun
  intro other hother
  rcases List.mem_append.1 hother with hold | hnew
  · exact hp other hold
  · rw [List.mem_singleton.1 hnew]
    exact hc

theorem set {p : Pass} (hp : p.Fits) : Fitting (MonadStateOf.set p : Synthesis PUnit) := by
  intro _ a p' _ hrun
  cases hrun
  exact hp

/-- What only changes the books beside the entries keeps them fitting. -/
theorem of_entries {g : Pass → Pass} (hg : ∀ p, (g p).comments.entries = p.comments.entries) :
    Fitting (modify g : Synthesis PUnit) := by
  intro p a p' hp hrun
  cases hrun
  show ∀ c ∈ (g p).comments.entries, c.Fits
  rw [hg]
  exact hp

end Fitting

namespace Yields

theorem bind (hm : Yields Q m) (hf : ∀ a, Q a → Fitting (f a)) : Fitting (m >>= f) := by
  intro p b p'' hp hrun
  obtain ⟨a, p', hfirst, hsecond⟩ := run_bind_eq_ok.1 hrun
  obtain ⟨hp', ha⟩ := hm p a p' hp hfirst
  exact hf a ha p' b p'' hp' hsecond

theorem map {g : α → β} (hm : Yields Q m) (hg : ∀ a, Q a → Q' (g a)) : Yields Q' (g <$> m) := by
  rw [map_eq_pure_bind]
  intro p b p'' hp hrun
  obtain ⟨a, p', hfirst, hlast⟩ := run_bind_eq_ok.1 hrun
  obtain ⟨hp', ha⟩ := hm p a p' hp hfirst
  cases hlast
  exact ⟨hp', hg a ha⟩

end Yields

/-! ## Tags -/

variable {t : Tree} {table : SymbolTable} {node : NodeId} {types : NodeId → Synthesis String}

theorem addParent_fitting (h : t.Fits) (id : Nat) (node : NodeId) : Fitting (addParent t id node) := by
  unfold addParent
  split
  · refine .lift_bind fun owner howner => ?_
    cases owner with
    | none => exact .pure ()
    | some owner => exact .setName (by decide) (h.ownerName howner owner rfl)
  · exact .pure ()

theorem fits_renderParam {p : Parameter} (h : (Decl.parameter p).Fits) :
    FitsLine (renderParam p).toList := by
  have hname : FitsLine p.name.toList := h.declaredName
  have hwritten : FitsLine (if p.rest then "..." ++ p.name else p.name).toList := by
    split
    · rw [String.toList_append]
      exact hname.behind (by decide)
    · exact hname
  rw [renderParam]
  split
  · rename_i init hinit
    have htext : FitsLine init.text.toList := h.initializer hinit
    simp only [String.toList_append]
    exact ((hwritten.behind (by decide)).between htext (by decide)).before (by decide)
  · split
    · simp only [String.toList_append]
      exact (hwritten.behind (by decide)).before (by decide)
    · exact hwritten

theorem addParam_fitting (h : t.Fits) (htype : Yields (FitsLine ·.toList) (types node)) :
    Fitting (addParam t types id node) := by
  unfold addParam
  split
  · rename_i p hdecl
    have hparam : (Decl.parameter p).Fits := hdecl ▸ h.decl node
    refine htype.bind fun type hfits => .edit fun c hc => ?_
    refine hc.putParam hparam.declaredName fun tag htag => ?_
    have hrenamed := htag.rename (fits_renderParam hparam)
    exact (hrenamed.retype hfits).describe Tree.not_blockEnd_documentation?
  · exact .pure ()

theorem addSignature_fitting (h : t.Fits) (htype : ∀ j, Yields (FitsLine ·.toList) (types j))
    {s : Signature} (hs : ∀ d ∈ s.documentation, ¬ blockEnd <:+: d.toList) :
    Fitting (addSignature t types id s) := by
  rw [addSignature_eq]
  refine Fitting.bind ?_ fun _ => ?_
  · split
    · rename_i documentation hdocumentation
      exact .edit fun c hc => hc.describe (hs documentation hdocumentation)
    · exact .pure ()
  · refine (Fitting.forM fun j _ => addParam_fitting h (htype j)).bind fun _ => ?_
    split
    · refine (htype s.declaration).bind fun type hfits => ?_
      exact .put (by decide) fits_none fun tag htag => htag.retype hfits
    · exact .pure ()

theorem addInline_fitting (h : t.Fits) (htype : ∀ j, Yields (FitsLine ·.toList) (types j))
    (inline : NodeId) : Fitting (addInline t types node inline) := by
  unfold addInline
  refine .lift_bind fun name hname => ?_
  have hfits := fits_some (h.anonymousName hname)
  refine (Fitting.newEntry Comment.fits_empty).bind fun id => ?_
  refine (addParent_fitting h id node).bind fun _ => ?_
  split
  · refine Fitting.bind (.ensure (by decide) hfits) fun _ => ?_
    split
    · rename_i s hs
      exact addSignature_fitting h htype (Tree.not_blockEnd_signature? hs)
    · exact .pure ()
  · exact .put (by decide) hfits fun tag htag => htag.retype (by decide)

theorem fits_shownType {name : String} (hname : FitsLine name.toList) (decl : Decl) :
    FitsLine (shownType decl name).toList := by
  unfold shownType
  split
  · split
    · refine TypeName.fits_format ?_
      rw [String.toList_append]
      exact hname.behind (by decide)
    · exact hname
  · exact hname

theorem recordNamed_fitting (node : NodeId) : Fitting (recordNamed node) :=
  .of_entries fun _ => rfl

/-- The type of a declaration fits, whatever entries are made for the inline types in it. -/
theorem typeWithin_yields (h : t.Fits) (htable : table.Fits) (depth : Nat) (node : NodeId) :
    Yields (FitsLine ·.toList) (typeWithin t table depth node) := by
  induction depth generalizing node with
  | zero =>
    rintro p a p' - ⟨⟩
  | succ depth ih =>
    intro p text p' hp hrun
    unfold typeWithin at hrun
    obtain ⟨result, q, hlift, hrest⟩ := run_bind_eq_ok.1 hrun
    obtain ⟨hresult, rfl⟩ := run_lift_eq_ok.1 hlift
    obtain ⟨⟨⟩, q, hrecord, hrest⟩ := run_bind_eq_ok.1 hrest
    obtain ⟨⟨⟩, q', hinline, hlast⟩ := run_bind_eq_ok.1 hrest
    -- The name is settled before the entries of the inline types are written.
    have hrecorded : q.Fits := recordNamed_fitting node _ _ _ hp hrecord
    have hlinked : q'.Fits := Fitting.forM (fun inline _ => addInline_fitting h ih inline) _ _ _ hrecorded
      hinline
    cases hlast
    exact ⟨hlinked, fits_shownType (h.resolveTypeName htable hresult) _⟩

theorem typeFor_yields (h : t.Fits) (htable : table.Fits) (node : NodeId) :
    Yields (FitsLine ·.toList) (typeFor t table node) :=
  typeWithin_yields h htable t.size node

theorem addFromSignature_fitting (h : t.Fits) (htable : table.Fits) {s : Signature}
    (hs : t.signature? node = some s) : Fitting (addFromSignature t table id s) :=
  addSignature_fitting h (typeFor_yields h htable) (Tree.not_blockEnd_signature? hs)

/-- The type of a declaration that may have none, and what is done with it. -/
theorem optionalType_fitting (h : t.Fits) (htable : table.Fits) (typed : Bool)
    {rest : Option String → Synthesis Unit}
    (hrest : ∀ type, (∀ text ∈ type, FitsLine text.toList) → Fitting (rest type)) :
    Fitting (do
      let type ← if typed then some <$> typeFor t table node else pure none
      rest type) := by
  cases typed with
  | true => exact ((typeFor_yields h htable node).map fun _ => fits_some).bind hrest
  | false => exact hrest none fits_none

/-! ## Facts -/

theorem addName_fitting (h : t.Fits) (hkind : FitsLine kind.toList) (node : NodeId) :
    Fitting (addName t id kind node) :=
  .setName hkind (h.decl node).declaredName

theorem addTypedName_fitting (h : t.Fits) (htable : table.Fits) (hkind : FitsLine kind.toList) :
    Fitting (addTypedName t table id kind node) := by
  have hname := (h.decl node).declaredName
  have hliteral : ∀ init, (t.decl node).initializer?.filter (fun init => init.literal.isSome) = some init →
      FitsLine init.text.toList :=
    fun init hinit => (h.decl node).initializer (Option.filter_eq_some_iff.1 hinit).1
  unfold addTypedName
  dsimp only
  refine optionalType_fitting h htable _ fun type htype => ?_
  refine Fitting.bind (.put hkind fits_none fun tag htag => ?_) fun _ => ?_
  · refine (htag.retypeOr htype).rename ?_
    split
    · rename_i init hinit
      split
      · exact hname
      · simp only [String.toList_append]
        exact hname.between (hliteral init hinit) (by decide)
    · exact hname
  · split
    · rename_i init hinit
      split
      · exact .setName (by decide) (hliteral init hinit)
      · exact .pure ()
    · exact .pure ()

theorem addDefault_fitting (h : t.Fits) : Fitting (addDefault t id node) := by
  unfold addDefault
  split
  · rename_i init hinit
    refine .edit fun c hc => ?_
    split
    · exact hc
    · refine hc.put (by decide) fits_none fun tag htag => ?_
      exact htag.rename ((h.decl node).initializer hinit)
  · exact .pure ()

theorem exists_mem_typeParams {text : String} (htext : text ∈ genericParams t node) :
    ∃ a, text ∈ (t.decl a).typeParams := by
  have hcallable : ∀ c : Callable, (t.decl node).typeParams = c.typeParams →
      text ∈ (if c.typeParams.isEmpty then
        ((t.ancestors node).find? fun a => (t.decl a).isClassLike).elim [] fun a => (t.decl a).typeParams
        else c.typeParams) → ∃ a, text ∈ (t.decl a).typeParams := by
    intro c hc hmem
    split at hmem
    · cases houter : (t.ancestors node).find? fun a => (t.decl a).isClassLike with
      | none =>
        rw [houter] at hmem
        exact absurd hmem List.not_mem_nil
      | some a =>
        rw [houter] at hmem
        exact ⟨a, hmem⟩
    · rw [← hc] at hmem
      exact ⟨node, hmem⟩
  unfold genericParams at htext
  dsimp only at htext
  split at htext
  · rename_i c hdecl
    exact hcallable c (by rw [hdecl]; rfl) htext
  · rename_i c hdecl
    exact hcallable c (by rw [hdecl]; rfl) htext
  · exact ⟨node, htext⟩

theorem fits_genericParams (h : t.Fits) (node : NodeId) :
    ∀ text ∈ genericParams t node, FitsLine text.toList := by
  intro text htext
  obtain ⟨a, ha⟩ := exists_mem_typeParams htext
  exact (h.decl a).typeParams ha

theorem addGeneric_fitting (h : t.Fits) (id : Nat) (node : NodeId) : Fitting (addGeneric t id node) := by
  unfold addGeneric
  dsimp only
  split
  · exact .setName (by decide) (fits_joinStrings (fits_genericParams h node) (by decide))
  · exact .pure ()

theorem addModifier_fitting (id : Nat) (node : NodeId) : Fitting (addModifier t id node) := by
  have htag : ∀ {b : Bool} {kind : String}, FitsLine kind.toList →
      Fitting (if b then ensure id kind else pure ()) := by
    intro b kind hkind
    cases b with
    | false => exact .pure ()
    | true => exact .ensure hkind fits_none
  rw [addModifier_eq]
  refine Fitting.bind ?_ fun _ => htag (by decide)
  split
  · exact .pure ()
  · refine Fitting.bind ?_ fun _ => htag (by decide)
    split
    · rename_i access _
      have haccess : FitsLine access.keyword.toList := by
        cases access <;> decide
      exact .ensure haccess fits_none
    · exact .pure ()

theorem fits_toString (n : Nat) : FitsLine (toString n).toList := by
  apply fitsLine_of_isEnding
  intro c hc
  have hdigits : (toString n).toList = Nat.toDigits 10 n := by simp
  rw [hdigits] at hc
  have hdigit := Nat.isDigit_of_mem_toDigits (by decide) (by decide) hc
  rw [← Bool.not_eq_true]
  intro hending
  simp only [isEnding, Bool.or_eq_true, beq_iff_eq] at hending
  rcases hending with (rfl | rfl) | rfl <;> exact absurd hdigit (by decide)

theorem addVariation_fitting (id : Nat) (node : NodeId) : Fitting (addVariation t id node) := by
  unfold addVariation
  refine .lift_bind fun key _ => ?_
  refine Fitting.bind (.of_entries fun _ => rfl) fun _ => ?_
  refine .get_bind fun p hp => ?_
  refine Fitting.bind (.set ?_) fun _ => ?_
  · show ∀ c ∈ (p.comments.count key).1.entries, c.Fits
    rw [Collection.entries_count]
    exact hp
  · split
    · exact .setName (by decide) (fits_toString _)
    · exact .pure ()

theorem mergeRepeated_fitting (id : Nat) (node : NodeId) : Fitting (mergeRepeated t id node) := by
  intro p _ p' hp hrun
  obtain ⟨key, -, rfl⟩ := run_mergeRepeated hrun
  exact hp.unite key id

theorem addHeritage_fitting (h : t.Fits) (htable : table.Fits) : Fitting (addHeritage t table id node) := by
  unfold addHeritage
  refine .forM fun clause hclause => .forM fun type htype => .lift_bind fun result hresult => ?_
  have hname : FitsLine result.name.toList :=
    h.resolveExpr htable node (fun text htext => (h.decl node).heritage hclause htype htext) hresult
  refine .ensure ?_ (fits_some hname)
  cases clause.kind <;> decide

theorem addCallbacks_fitting (h : t.Fits) (htable : table.Fits) {signatures : List Signature}
    (hsignatures : ∀ s ∈ signatures, ∃ j, t.signature? j = some s) :
    Fitting (addCallbacks t table id node signatures) := by
  unfold addCallbacks
  refine .forM fun s hs => ?_
  obtain ⟨j, hj⟩ := hsignatures s hs
  refine .get_bind fun p hp => ?_
  refine (Fitting.newEntry (hp.get id)).bind fun sibling => ?_
  refine (addName_fitting h (by decide) node).bind fun _ => ?_
  refine (addGeneric_fitting h sibling node).bind fun _ => ?_
  refine (addFromSignature_fitting h htable hj).bind fun _ => ?_
  exact (addParent_fitting h sibling node).bind fun _ => addVariation_fitting sibling node

theorem addSignatureEntries_fitting (h : t.Fits) (htable : table.Fits) (hkind : FitsLine kind.toList)
    {signatures : List Signature} (hsignatures : ∀ s ∈ signatures, ∃ j, t.signature? j = some s) :
    Fitting (addSignatureEntries t table kind signatures) := by
  unfold addSignatureEntries
  refine .forM fun s hs => ?_
  obtain ⟨j, hj⟩ := hsignatures s hs
  refine (Fitting.newEntry Comment.fits_empty).bind fun linked => ?_
  refine (Fitting.ensure hkind fits_none).bind fun _ => ?_
  refine (addGeneric_fitting h linked _).bind fun _ => ?_
  refine (addFromSignature_fitting h htable hj).bind fun _ => ?_
  exact (addParent_fitting h linked _).bind fun _ => addVariation_fitting linked _

theorem addEnumMembers_fitting (h : t.Fits) {e : Enum} (hdecl : t.decl node = .enum e) :
    Fitting (addEnumMembers e.members id) := by
  unfold addEnumMembers
  refine .forM fun member hmember => ?_
  have htexts : ∀ text ∈ member.name :: member.initializer.toList.map Initializer.text,
      FitsLine text.toList := by
    intro text htext
    have hfits := (h.decl node).texts
    rw [hdecl] at hfits
    exact hfits text (List.mem_append_right _ (List.mem_flatMap.2 ⟨member, hmember, htext⟩))
  have hname := htexts member.name List.mem_cons_self
  refine .put (by decide) (fits_some hname) fun tag htag => ?_
  split
  · rename_i init hinit
    have hmem : init.text ∈ member.initializer.toList.map Initializer.text := by
      rw [(Option.filter_eq_some_iff.1 hinit).1]
      exact List.mem_cons_self
    refine htag.rename ?_
    simp only [String.toList_append]
    exact hname.between (htexts init.text (List.mem_cons_of_mem _ hmem)) (by decide)
  · exact htag

theorem addTypedefProperty_fitting (h : t.Fits) (htable : table.Fits) :
    Fitting (addTypedefProperty t table id node) := by
  have hname := fits_some (h.decl node).declaredName
  unfold addTypedefProperty
  refine optionalType_fitting h htable _ fun type htype => ?_
  exact .put (by decide) hname fun tag htag => htag.retypeOr htype

end Synthesis

end DocBlock
