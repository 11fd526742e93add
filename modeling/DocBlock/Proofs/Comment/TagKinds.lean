import DocBlock.Proofs.Comment.Enrichment

/-! # The tags of one kind

A look-up only sees the tags of the kind it asks for (`tagsOf`), and a change that looks a tag up is made
among these: `tagsOf_put_self` says what it does to them, `tagsOf_put_of_ne` that all other kinds are as
before. A builder of facts is then described by the kinds that it may touch (`Spares`). -/

namespace DocBlock.Comment

variable {c c' c'' : Comment} {kind k : String} {name n : Option String} {f : Tag → Tag} {tag : Tag}
  {ks ls : List String}

/-- The tags of a kind, in order. -/
def tagsOf (c : Comment) (kind : String) : List Tag :=
  c.tags.filter fun tag => tag.kind == kind

theorem kind_of_answers (h : tag.answers kind name = true) : tag.kind = kind := by
  rw [Tag.answers, Bool.and_eq_true, beq_iff_eq] at h
  exact h.1

/-- A look-up is made among the tags of its kind. -/
theorem tag?_eq (c : Comment) (kind : String) (name : Option String) :
    c.tag? kind name = (c.tagsOf kind).find? (Tag.answers kind name) := by
  rw [tag?, tagsOf, List.find?_filter]
  congr 1
  funext tag
  by_cases h : tag.answers kind name = true
  · simp [h, kind_of_answers h]
  · simp [h]

theorem hasTag_eq (c : Comment) (kind : String) (name : Option String) :
    c.hasTag kind name = (c.tag? kind name).isSome := by
  rw [hasTag, tag?, List.isSome_find?]

/-- A look-up without a name finds the first tag of its kind. -/
theorem tag?_none (c : Comment) (kind : String) : c.tag? kind none = (c.tagsOf kind).head? := by
  rw [tag?, tagsOf, List.head?_filter]
  congr 1
  funext tag
  rw [Tag.answers, Option.isNone_none, Bool.true_or, Bool.and_true]

/-! ## One change -/

/-- The tags after a change: the first one that answers is changed, or one is appended. -/
def putTag (kind : String) (name : Option String) (f : Tag → Tag) : List Tag → List Tag
  | [] => [f (Tag.named kind name)]
  | tag :: tags => if tag.answers kind name then f tag :: tags else tag :: putTag kind name f tags

theorem tags_put (c : Comment) (kind : String) (name : Option String) (f : Tag → Tag) :
    (c.put kind name f).tags = putTag kind name f c.tags := by
  obtain ⟨description, tags⟩ := c
  induction tags with
  | nil => rfl
  | cons tag tags ih =>
    rw [putTag]
    by_cases h : tag.answers kind name = true
    · rw [if_pos h, put, obtain, position?, List.findIdx?_cons, h]
      rfl
    · rw [if_neg h, ← ih]
      rw [put, obtain, position?, List.findIdx?_cons, if_neg h, put, obtain, position?]
      cases List.findIdx? (Tag.answers kind name) tags <;> rfl

/-- Among the tags of other kinds nothing changes. -/
theorem tagsOf_put_of_ne (hf : ∀ tag, (f tag).kind = tag.kind) (hk : k ≠ kind) (c : Comment)
    (name : Option String) : (c.put kind name f).tagsOf k = c.tagsOf k := by
  rw [tagsOf, tags_put, tagsOf]
  induction c.tags with
  | nil => simp [putTag, hf, Tag.named, Ne.symm hk]
  | cons tag tags ih =>
    rw [putTag]
    split
    · rename_i h
      have hne : (tag.kind == k) = false := by
        rw [kind_of_answers h]
        exact beq_eq_false_iff_ne.2 (Ne.symm hk)
      rw [List.filter_cons_of_neg (by rw [hf, hne]; exact Bool.false_ne_true),
        List.filter_cons_of_neg (by rw [hne]; exact Bool.false_ne_true)]
    · rw [List.filter_cons, List.filter_cons, ih]

/-- Among the tags of its kind, a change is the same change. -/
theorem tagsOf_put_self (hf : ∀ tag, (f tag).kind = tag.kind) (c : Comment) (kind : String)
    (name : Option String) : (c.put kind name f).tagsOf kind = putTag kind name f (c.tagsOf kind) := by
  rw [tagsOf, tags_put, tagsOf]
  induction c.tags with
  | nil => simp [putTag, hf, Tag.named]
  | cons tag tags ih =>
    rw [putTag]
    by_cases h : tag.answers kind name = true
    · have hkind : (tag.kind == kind) = true := beq_iff_eq.2 (kind_of_answers h)
      rw [if_pos h, List.filter_cons, if_pos (by rw [hf, hkind]), List.filter_cons, if_pos hkind, putTag,
        if_pos h]
    · rw [if_neg h]
      by_cases hkind : (tag.kind == kind) = true
      · rw [List.filter_cons, if_pos hkind, List.filter_cons, if_pos hkind, putTag, if_neg h, ih]
      · rw [List.filter_cons, if_neg hkind, List.filter_cons, if_neg hkind, ih]

/-- Where there is no tag of the kind, one is made. -/
theorem tagsOf_put_of_nil (hf : ∀ tag, (f tag).kind = tag.kind) (hnil : c.tagsOf kind = []) :
    (c.put kind name f).tagsOf kind = [f (Tag.named kind name)] := by
  rw [tagsOf_put_self hf, hnil]
  rfl

/-- A change without a name is made to the first tag of the kind. -/
theorem head?_tagsOf_put (hf : ∀ tag, (f tag).kind = tag.kind) (c : Comment) (kind : String) :
    ((c.put kind none f).tagsOf kind).head? =
      some (f ((c.tagsOf kind).head?.getD (Tag.named kind none))) := by
  rw [tagsOf_put_self hf]
  cases htags : c.tagsOf kind with
  | nil => rfl
  | cons tag tags =>
    have hkind : (tag.kind == kind) = true := by
      have hmem : tag ∈ c.tagsOf kind := by rw [htags]; exact List.mem_cons_self
      exact (List.mem_filter.1 hmem).2
    rw [putTag, Tag.answers, hkind]
    rfl

/-- Changing a tag shows only among the tags of its kind. -/
theorem tagsOf_modifyAt (hf : ∀ tag, (f tag).kind = tag.kind) {i : Nat}
    (hkind : ∀ tag, c.tags[i]? = some tag → tag.kind ≠ k) : (c.modifyAt i f).tagsOf k = c.tagsOf k := by
  rw [tagsOf, modifyAt, tagsOf]
  revert hkind
  induction c.tags generalizing i with
  | nil =>
    intro _
    rw [List.modify_nil]
  | cons tag tags ih =>
    intro hkind
    cases i with
    | zero =>
      have hne : (tag.kind == k) = false := beq_eq_false_iff_ne.2 (hkind tag rfl)
      rw [List.modify_zero_cons, List.filter_cons_of_neg (by rw [hf, hne]; exact Bool.false_ne_true),
        List.filter_cons_of_neg (by rw [hne]; exact Bool.false_ne_true)]
    | succ i =>
      have htail := ih (i := i) fun other hother => hkind other hother
      rw [List.modify_succ_cons, List.filter_cons, List.filter_cons, htail]

theorem kind_of_paramPosition? {name : String} {repeatable optional : Bool} {i : Nat}
    (hpos : c.paramPosition? name repeatable optional = some i) (hi : c.tags[i]? = some tag) :
    tag.kind = "param" := by
  have hat : ∀ {answers : Tag → Bool}, c.tags.findIdx? answers = some i → answers tag = true := by
    intro answers hfound
    obtain ⟨hlt, hanswers, -⟩ := List.findIdx?_eq_some_iff_getElem.1 hfound
    rwa [(List.getElem?_eq_some_iff.1 hi).2] at hanswers
  rw [paramPosition?] at hpos
  split at hpos
  · rename_i j hfound
    obtain rfl := Option.some.inj hpos
    obtain ⟨spelling, -, hspelled⟩ := List.exists_of_findSome?_eq_some hfound
    exact kind_of_answers (hat hspelled)
  · split at hpos
    · have hdefaulted := hat hpos
      rw [isDefaultedParam, Bool.and_eq_true, beq_iff_eq] at hdefaulted
      exact hdefaulted.1
    · exact absurd hpos (by simp)

theorem tagsOf_putParam_of_ne (hf : ∀ tag, (f tag).kind = tag.kind) (hk : k ≠ "param") (c : Comment)
    (name : String) (repeatable optional : Bool) :
    (c.putParam name repeatable optional f).tagsOf k = c.tagsOf k := by
  rw [putParam, obtainParam]
  cases hpos : c.paramPosition? name repeatable optional with
  | some i =>
    show (c.modifyAt i f).tagsOf k = c.tagsOf k
    refine tagsOf_modifyAt hf fun tag htag => ?_
    rw [kind_of_paramPosition? hpos htag]
    exact Ne.symm hk
  | none =>
    -- The tag that has been appended is the one that is changed.
    show ((c.append (Tag.named "param" (some name))).modifyAt c.tags.length f).tagsOf k = c.tagsOf k
    have hlast : ∀ tag, (c.append (Tag.named "param" (some name))).tags[c.tags.length]? = some tag →
        tag.kind ≠ k := by
      intro tag htag
      simp only [append, List.getElem?_concat_length, Option.some.injEq] at htag
      rw [← htag]
      exact Ne.symm hk
    rw [tagsOf_modifyAt hf hlast, tagsOf, append, List.filter_append, tagsOf]
    simp [Tag.named, Ne.symm hk]

/-! ## Kinds that are left alone -/

/-- A change that only touches tags of the kinds `ks`. -/
def Spares (ks : List String) (c c' : Comment) : Prop :=
  ∀ k, k ∉ ks → c'.tagsOf k = c.tagsOf k

namespace Spares

theorem refl (ks : List String) (c : Comment) : Spares ks c c :=
  fun _ _ => rfl

theorem trans (h : Spares ks c c') (h' : Spares ls c' c'') : Spares (ks ++ ls) c c'' := by
  intro k hk
  rw [List.mem_append, not_or] at hk
  rw [h' k hk.2, h k hk.1]

theorem mono (h : Spares ks c c') (hsub : ks ⊆ ls) : Spares ls c c' :=
  fun k hk => h k fun hmem => hk (hsub hmem)

theorem put (hf : ∀ tag, (f tag).kind = tag.kind) (c : Comment) (kind : String)
    (name : Option String) : Spares [kind] c (c.put kind name f) :=
  fun _ hk => tagsOf_put_of_ne hf (List.ne_of_not_mem_cons hk) c name

theorem putParam (hf : ∀ tag, (f tag).kind = tag.kind) (c : Comment) (name : String)
    (repeatable optional : Bool) : Spares ["param"] c (c.putParam name repeatable optional f) :=
  fun _ hk => tagsOf_putParam_of_ne hf (List.ne_of_not_mem_cons hk) c name repeatable optional

theorem description (ks : List String) (c : Comment) (d : Option String) :
    Spares ks c { c with description := d } :=
  fun _ _ => rfl

theorem tag? (h : Spares ks c c') (hk : k ∉ ks) (n : Option String) : c'.tag? k n = c.tag? k n := by
  rw [tag?_eq, tag?_eq, h k hk]

theorem hasTag (h : Spares ks c c') (hk : k ∉ ks) (n : Option String) :
    c'.hasTag k n = c.hasTag k n := by
  rw [hasTag_eq, hasTag_eq, h.tag? hk]

end Spares

/-- A change that only touches tags of the kinds `ks` and leaves `tag` as the one tag of its kind, where
there was none of that kind. -/
structure Introduces (ks : List String) (tag : Tag) (c c' : Comment) : Prop where
  spares : Spares ks c c'
  tags : c.tagsOf tag.kind = [] → c'.tagsOf tag.kind = [tag]

namespace Introduces

theorem put (hf : ∀ tag, (f tag).kind = tag.kind) (htag : f (Tag.named kind name) = tag) (c : Comment) :
    Introduces [kind] tag c (c.put kind name f) where
  spares := .put hf c kind name
  tags hnil := by
    have hkind : tag.kind = kind := by rw [← htag, hf, Tag.named]
    rw [hkind] at hnil ⊢
    rw [tagsOf_put_of_nil hf hnil, htag]

theorem spared (h : Introduces ks tag c c') (hs : Spares ls c' c'') (hkind : tag.kind ∉ ls) :
    Introduces (ks ++ ls) tag c c'' where
  spares := h.spares.trans hs
  tags hnil := by rw [hs tag.kind hkind, h.tags hnil]

theorem mono (h : Introduces ks tag c c') (hsub : ks ⊆ ls) : Introduces ls tag c c' :=
  ⟨h.spares.mono hsub, h.tags⟩

end Introduces

end DocBlock.Comment
