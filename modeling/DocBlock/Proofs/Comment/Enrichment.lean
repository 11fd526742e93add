import DocBlock.Proofs.Comment.ParamNames

/-! # Comments that only grow

Tags are changed where they stand, and new ones come last. `getElem?_put` and `getElem?_putParam` say
what a change does to the tag at a position. From them follows what every builder of facts does to a
comment (`Writes`): a tag keeps its kind, and its name unless its kind is one that the builder writes,
and a comment that enriches a hand-written one still does so afterwards. -/

namespace DocBlock.Comment

variable {c c' c'' h : Comment} {kind k : String} {name n : Option String} {f : Tag → Tag} {tag : Tag}
  {i : Nat} {ks ls : List String}

/-! ## One change -/

@[simp] theorem description_put (c : Comment) (kind : String) (name : Option String) (f : Tag → Tag) :
    (c.put kind name f).description = c.description := by
  rw [put, obtain]
  cases c.position? kind name <;> rfl

@[simp] theorem description_putParam (c : Comment) (name : String) (repeatable optional : Bool)
    (f : Tag → Tag) : (c.putParam name repeatable optional f).description = c.description := by
  rw [putParam, obtainParam]
  cases c.paramPosition? name repeatable optional <;> rfl

/-- A tag stays as it is when another one is changed, or one is appended. -/
theorem getElem?_modifyAt (hi : c.tags[i]? = some tag) (j : Nat) (f : Tag → Tag) :
    (c.modifyAt j f).tags[i]? = some (if j = i then f tag else tag) := by
  rw [modifyAt, List.getElem?_modify, hi]
  split <;> rfl

theorem getElem?_append (hi : c.tags[i]? = some tag) (last : Tag) :
    (c.append last).tags[i]? = some tag := by
  rw [append, List.getElem?_append_left (List.getElem?_eq_some_iff.1 hi).1, hi]

theorem lt_length_of_getElem? (hi : c.tags[i]? = some tag) : i < c.tags.length :=
  (List.getElem?_eq_some_iff.1 hi).1

/-- A change affects a tag only when it answers the look-up. -/
theorem getElem?_put (hi : c.tags[i]? = some tag) (kind : String) (name : Option String)
    (f : Tag → Tag) :
    (c.put kind name f).tags[i]? = some tag ∨
      (tag.answers kind name = true ∧ (c.put kind name f).tags[i]? = some (f tag)) := by
  rw [put, obtain]
  cases hpos : c.position? kind name with
  | none =>
    -- The changed tag has been appended behind all others.
    left
    have hne : c.tags.length ≠ i := Nat.ne_of_gt (lt_length_of_getElem? hi)
    show ((c.append _).modifyAt c.tags.length f).tags[i]? = some tag
    rw [getElem?_modifyAt (getElem?_append hi _), if_neg hne]
  | some j =>
    show (c.modifyAt j f).tags[i]? = some tag ∨ _ ∧ (c.modifyAt j f).tags[i]? = some (f tag)
    rw [getElem?_modifyAt hi]
    by_cases hj : j = i
    · subst hj
      rw [if_pos rfl]
      obtain ⟨hlt, hanswers, -⟩ := List.findIdx?_eq_some_iff_getElem.1 hpos
      have htag : c.tags[j] = tag := (List.getElem?_eq_some_iff.1 hi).2
      rw [htag] at hanswers
      exact .inr ⟨hanswers, rfl⟩
    · rw [if_neg hj]
      exact .inl rfl

/-- Afterwards there is a tag that has been changed. -/
theorem exists_mem_put (c : Comment) (kind : String) (name : Option String) (f : Tag → Tag) :
    ∃ tag, tag.answers kind name = true ∧ f tag ∈ (c.put kind name f).tags := by
  rw [put, obtain]
  cases hpos : c.position? kind name with
  | none =>
    refine ⟨Tag.named kind name, by simp [Tag.named, Tag.answers], ?_⟩
    show f _ ∈ ((c.append _).modifyAt c.tags.length f).tags
    refine List.mem_of_getElem? (i := c.tags.length) ?_
    have hlast : (c.append (Tag.named kind name)).tags[c.tags.length]? =
        some (Tag.named kind name) := by
      simp [append]
    rw [getElem?_modifyAt hlast, if_pos rfl]
  | some j =>
    obtain ⟨hlt, hanswers, -⟩ := List.findIdx?_eq_some_iff_getElem.1 hpos
    refine ⟨c.tags[j], hanswers, ?_⟩
    show f _ ∈ (c.modifyAt j f).tags
    refine List.mem_of_getElem? (i := j) ?_
    rw [getElem?_modifyAt (List.getElem?_eq_getElem hlt), if_pos rfl]

/-- A look-up for a parameter is answered by a tag that names it. -/
theorem paramPosition?_spec {name : String} (hname : PlainName name) {repeatable optional : Bool}
    (hpos : c.paramPosition? name repeatable optional = some i) (hi : c.tags[i]? = some tag) :
    tag.kind = "param" ∧ tag.name.map bareParamName = some name := by
  rw [paramPosition?] at hpos
  split at hpos
  · rename_i j hfound
    obtain rfl := Option.some.inj hpos
    obtain ⟨spelling, hmem, hspelled⟩ := List.exists_of_findSome?_eq_some hfound
    obtain ⟨hlt, hanswers, -⟩ := List.findIdx?_eq_some_iff_getElem.1 hspelled
    have htag : c.tags[j] = tag := (List.getElem?_eq_some_iff.1 hi).2
    rw [htag, Tag.answers] at hanswers
    simp only [Bool.and_eq_true, beq_iff_eq, Option.isNone_some, Bool.false_or] at hanswers
    refine ⟨hanswers.1, ?_⟩
    rw [hanswers.2, Option.map_some, bareParamName_of_mem_paramSpellings hname hmem]
  · split at hpos
    · obtain ⟨hlt, hdefaulted, -⟩ := List.findIdx?_eq_some_iff_getElem.1 hpos
      have htag : c.tags[i] = tag := (List.getElem?_eq_some_iff.1 hi).2
      rw [htag] at hdefaulted
      exact bareParamName_of_isDefaultedParam hname hdefaulted
    · exact absurd hpos (by simp)

/-- A change for a parameter affects a tag only when it names the parameter. -/
theorem getElem?_putParam {name : String} (hname : PlainName name) (hi : c.tags[i]? = some tag)
    (repeatable optional : Bool) (f : Tag → Tag) :
    (c.putParam name repeatable optional f).tags[i]? = some tag ∨
      ((tag.kind = "param" ∧ tag.name.map bareParamName = some name) ∧
        (c.putParam name repeatable optional f).tags[i]? = some (f tag)) := by
  rw [putParam, obtainParam]
  cases hpos : c.paramPosition? name repeatable optional with
  | none =>
    left
    have hne : c.tags.length ≠ i := Nat.ne_of_gt (lt_length_of_getElem? hi)
    show ((c.append _).modifyAt c.tags.length f).tags[i]? = some tag
    rw [getElem?_modifyAt (getElem?_append hi _), if_neg hne]
  | some j =>
    show (c.modifyAt j f).tags[i]? = some tag ∨ _ ∧ (c.modifyAt j f).tags[i]? = some (f tag)
    rw [getElem?_modifyAt hi]
    by_cases hj : j = i
    · subst hj
      rw [if_pos rfl]
      exact .inr ⟨paramPosition?_spec hname hpos hi, rfl⟩
    · rw [if_neg hj]
      exact .inl rfl

/-! ## Enriched comments -/

/-- The bare names of the parameters that a comment documents. -/
def paramNames (c : Comment) : List String :=
  c.tags.filterMap fun tag => if tag.kind = "param" then tag.name.map bareParamName else none

/-- A comment that has kept the prose of a hand-written one: its description, and each tag in its
place with its kind and its description. A tag for a parameter is still one for that parameter. -/
structure Enriches (c h : Comment) : Prop where
  description : c.description = h.description
  tags : ∀ (i : Nat) (tag : Tag), h.tags[i]? = some tag → ∃ tag', c.tags[i]? = some tag' ∧
    tag'.kind = tag.kind ∧ tag'.description = tag.description ∧
      (tag.kind = "param" → tag'.name.map bareParamName = tag.name.map bareParamName)

theorem Enriches.refl (h : Comment) : h.Enriches h :=
  ⟨rfl, fun _ tag hi => ⟨tag, hi, rfl, rfl, fun _ => rfl⟩⟩

theorem Enriches.length_le (hc : c.Enriches h) : h.tags.length ≤ c.tags.length := by
  refine Nat.le_of_not_lt ?_
  intro hlt
  obtain ⟨tag', htag', -⟩ := hc.tags c.tags.length _ (List.getElem?_eq_getElem hlt)
  exact Nat.lt_irrefl _ (lt_length_of_getElem? htag')

/-- Two tags for the same parameter are the same tag when the parameters are distinct. -/
theorem eq_of_paramNames_nodup (hnodup : h.paramNames.Nodup) {j : Nat} {tag tag' : Tag}
    (hi : h.tags[i]? = some tag) (hj : h.tags[j]? = some tag') (hkind : tag.kind = "param")
    (hkind' : tag'.kind = "param") {name : String} (hname : tag.name.map bareParamName = some name)
    (hname' : tag'.name.map bareParamName = some name) : i = j := by
  rw [paramNames] at hnodup
  generalize h.tags = tags at hnodup hi hj
  induction tags generalizing i j with
  | nil => exact absurd hi (by simp)
  | cons first tags ih =>
    -- A tag for the parameter among the others excludes that the first one is for it as well.
    have hmem : ∀ (k : Nat) (other : Tag), tags[k]? = some other → other.kind = "param" →
        other.name.map bareParamName = some name →
        name ∈ tags.filterMap fun tag =>
          if tag.kind = "param" then tag.name.map bareParamName else none := by
      intro k other hk hother hothername
      exact List.mem_filterMap.2 ⟨other, List.mem_of_getElem? hk, by rw [if_pos hother, hothername]⟩
    have hfirst : first.kind = "param" → first.name.map bareParamName = some name →
        ∀ (k : Nat) (other : Tag), tags[k]? = some other → other.kind = "param" →
          other.name.map bareParamName ≠ some name := by
      intro hk hn k other hother hotherkind hothername
      rw [List.filterMap_cons_some (by rw [if_pos hk, hn]), List.nodup_cons] at hnodup
      exact hnodup.1 (hmem k other hother hotherkind hothername)
    cases i with
    | zero =>
      obtain rfl : first = tag := by simpa using hi
      cases j with
      | zero => rfl
      | succ j => exact absurd hname' (hfirst hkind hname j tag' (by simpa using hj) hkind')
    | succ i =>
      cases j with
      | zero =>
        obtain rfl : first = tag' := by simpa using hj
        exact absurd hname (hfirst hkind' hname' i tag (by simpa using hi) hkind)
      | succ j =>
        have hrest : (tags.filterMap fun tag =>
            if tag.kind = "param" then tag.name.map bareParamName else none).Nodup :=
          hnodup.sublist ((List.sublist_cons_self first tags).filterMap _)
        have heq : i = j := ih hrest (by simpa using hi) (by simpa using hj)
        rw [heq]

/-! ## What a builder may do -/

/-- What a builder that names tags of the kinds `ks` does to a comment that was hand-written as
`h`. -/
structure Writes (h : Comment) (ks : List String) (c c' : Comment) : Prop where
  tags : ∀ (i : Nat) (tag : Tag), c.tags[i]? = some tag → ∃ tag', c'.tags[i]? = some tag' ∧ tag'.kind = tag.kind ∧
    (tag.kind ∉ ks → tag'.name = tag.name)
  enriches : h.paramNames.Nodup → c.Enriches h → c'.Enriches h

namespace Writes

theorem refl (h : Comment) (ks : List String) (c : Comment) : Writes h ks c c :=
  ⟨fun _ tag hi => ⟨tag, hi, rfl, fun _ => rfl⟩, fun _ hc => hc⟩

theorem trans (hw : Writes h ks c c') (hw' : Writes h ls c' c'') : Writes h (ks ++ ls) c c'' where
  tags i tag hi := by
    obtain ⟨tag', hi', hkind, hname⟩ := hw.tags i tag hi
    obtain ⟨tag'', hi'', hkind', hname'⟩ := hw'.tags i tag' hi'
    refine ⟨tag'', hi'', by rw [hkind', hkind], ?_⟩
    intro hnot
    rw [List.mem_append, not_or] at hnot
    rw [hname' (by rw [hkind]; exact hnot.2), hname hnot.1]
  enriches hnodup hc := hw'.enriches hnodup (hw.enriches hnodup hc)

theorem mono (hw : Writes h ks c c') (hsub : ks ⊆ ls) : Writes h ls c c' where
  tags i tag hi := by
    obtain ⟨tag', hi', hkind, hname⟩ := hw.tags i tag hi
    exact ⟨tag', hi', hkind, fun hnot => hname fun hmem => hnot (hsub hmem)⟩
  enriches := hw.enriches

/-- A tag of a kind that is not written is still found. -/
theorem hasTag (hw : Writes h ks c c') (hk : k ∉ ks) (htag : c.hasTag k n = true) :
    c'.hasTag k n = true := by
  rw [Comment.hasTag, List.any_eq_true] at htag ⊢
  obtain ⟨tag, hmem, hanswers⟩ := htag
  obtain ⟨i, hi⟩ := List.mem_iff_getElem?.1 hmem
  obtain ⟨tag', hi', hkind, hname⟩ := hw.tags i tag hi
  have hkind_k : tag.kind = k := by
    rw [Tag.answers, Bool.and_eq_true, beq_iff_eq] at hanswers
    exact hanswers.1
  refine ⟨tag', List.mem_of_getElem? hi', ?_⟩
  rw [Tag.answers, hkind, hname (by rw [hkind_k]; exact hk)]
  exact hanswers

/-- Naming a tag of some kind, or giving it a type, leaves all prose as it is. -/
theorem put (hparam : kind ≠ "param") (hkind : ∀ tag, (f tag).kind = tag.kind)
    (hdescription : ∀ tag, (f tag).description = tag.description)
    (hname : kind ∈ ks ∨ ∀ tag, (f tag).name = tag.name) : Writes h ks c (c.put kind name f) where
  tags i tag hi := by
    rcases getElem?_put hi kind name f with hsame | ⟨hanswers, hchanged⟩
    · exact ⟨tag, hsame, rfl, fun _ => rfl⟩
    · refine ⟨f tag, hchanged, hkind tag, ?_⟩
      intro hnot
      rw [Tag.answers, Bool.and_eq_true, beq_iff_eq] at hanswers
      rcases hname with hmem | hall
      · rw [hanswers.1] at hnot
        exact absurd hmem hnot
      · exact hall tag
  enriches _ hc := by
    refine ⟨by rw [description_put, hc.description], ?_⟩
    intro i tag hi
    obtain ⟨tag', hi', hkind', hdescription', hbare⟩ := hc.tags i tag hi
    -- The tag that answers is no `param` tag, so it may be renamed freely.
    rcases getElem?_put hi' kind name f with hsame | ⟨hanswers, hchanged⟩
    · exact ⟨tag', hsame, hkind', hdescription', hbare⟩
    · refine ⟨f tag', hchanged, by rw [hkind, hkind'], by rw [hdescription, hdescription'], ?_⟩
      intro htag
      rw [Tag.answers, Bool.and_eq_true, beq_iff_eq] at hanswers
      rw [← hkind', hanswers.1] at htag
      exact absurd htag hparam

/-- A tag for a parameter may be renamed as long as it stays one for that parameter, and be given the
description that the hand-written comment has for the parameter. -/
theorem putParam {name : String} (hname : PlainName name) {repeatable optional : Bool}
    (hkind : ∀ tag, (f tag).kind = tag.kind)
    (hbare : ∀ tag, (f tag).name.map bareParamName = some name) {documentation : Option String}
    (hdescription : ∀ tag, (f tag).description = documentation.or tag.description)
    (hdocumentation : ∀ d ∈ documentation, ∃ tag ∈ h.tags, tag.kind = "param" ∧
      tag.name.map bareParamName = some name ∧ tag.description = some d) :
    Writes h ["param"] c (c.putParam name repeatable optional f) where
  tags i tag hi := by
    rcases getElem?_putParam hname hi repeatable optional f with hsame | ⟨⟨hparam, -⟩, hchanged⟩
    · exact ⟨tag, hsame, rfl, fun _ => rfl⟩
    · refine ⟨f tag, hchanged, hkind tag, ?_⟩
      intro hnot
      rw [hparam] at hnot
      exact absurd List.mem_cons_self hnot
  enriches hnodup hc := by
    refine ⟨by rw [description_putParam, hc.description], ?_⟩
    intro i tag hi
    obtain ⟨tag', hi', hkind', hdescription', hbare'⟩ := hc.tags i tag hi
    rcases getElem?_putParam hname hi' repeatable optional f with
      hsame | ⟨⟨hparam, hparamname⟩, hchanged⟩
    · exact ⟨tag', hsame, hkind', hdescription', hbare'⟩
    · have htag : tag.kind = "param" := by rw [← hkind', hparam]
      have htagname : tag.name.map bareParamName = some name := by rw [← hbare' htag, hparamname]
      refine ⟨f tag', hchanged, by rw [hkind, hkind'], ?_, fun _ => by rw [hbare, htagname]⟩
      rw [hdescription, hdescription']
      cases hdoc : documentation with
      | none => rw [Option.none_or]
      | some d =>
        -- The tag that is documented is the tag that the documentation comes from.
        obtain ⟨source, hmem, hsource, hsourcename, hsourcetext⟩ := hdocumentation d hdoc
        obtain ⟨j, hj⟩ := List.mem_iff_getElem?.1 hmem
        obtain rfl := eq_of_paramNames_nodup hnodup hi hj htag hsource htagname hsourcename
        rw [hi] at hj
        rw [Option.some.inj hj, hsourcetext, Option.some_or]

/-- Writing the description that is there changes nothing. -/
theorem description {d : String} (hd : h.description = some d) :
    Writes h ks c { c with description := some d } where
  tags _ tag hi := ⟨tag, hi, rfl, fun _ => rfl⟩
  enriches _ hc := ⟨hd.symm, hc.tags⟩

end Writes

/-- A tag whose name is set is found under that name. -/
theorem hasTag_put_named (c : Comment) (kind : String) {name : String}
    (hkind : ∀ tag, (f tag).kind = tag.kind)
    (hname : ∀ tag, (f tag).name = some name) : (c.put kind none f).hasTag kind (some name) = true := by
  obtain ⟨tag, hanswers, hmem⟩ := exists_mem_put c kind none f
  rw [hasTag, List.any_eq_true]
  refine ⟨f tag, hmem, ?_⟩
  rw [Tag.answers, Bool.and_eq_true, beq_iff_eq] at hanswers
  rw [Tag.answers, hkind, hanswers.1, hname]
  simp

theorem hasTag_ensured (c : Comment) (kind : String) (name : Option String) :
    (c.put kind name fun tag => tag).hasTag kind name = true := by
  obtain ⟨tag, hanswers, hmem⟩ := exists_mem_put c kind name fun tag => tag
  rw [hasTag, List.any_eq_true]
  exact ⟨tag, hmem, hanswers⟩

theorem tags_ne_nil_of_hasTag (h : c.hasTag k n = true) : c.tags ≠ [] := by
  rw [hasTag, List.any_eq_true] at h
  obtain ⟨tag, hmem, -⟩ := h
  exact List.ne_nil_of_mem hmem

theorem isEmpty_of_tags_ne_nil (h : c.tags ≠ []) : c.isEmpty = false := by
  rw [isEmpty, List.isEmpty_eq_false_iff.2 h, Bool.and_false]

/-- A comment with a tag is not empty. -/
theorem isEmpty_of_hasTag (h : c.hasTag k n = true) : c.isEmpty = false :=
  isEmpty_of_tags_ne_nil (tags_ne_nil_of_hasTag h)

end DocBlock.Comment
