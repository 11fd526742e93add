import Mathlib.Data.List.Nodup
import DocBlock.Proofs.Comment.Gathering

/-! # Merging is a union

A look-up only depends on the kinds and names of the tags before the one that it selects, and merging
changes neither: a look-up that has selected a tag selects it ever after (`position?_of_heads`). So the
tags of the source are written to fixed positions of the target (`selections`), the last one that has a
type or a description decides (`bind_overwriteAll`), and writing them once more finds everything as it is.
The main statement is `mergeInto_union`: merging is a union of what can be looked up. -/

namespace DocBlock

/-- Whether a tag that is looked up by `head` answers a look-up. -/
def Tag.headAnswers (kind : String) (name : Option String) (head : String × Option String) : Bool :=
  head.1 == kind && (name.isNone || head.2 == name)

namespace Comment

variable {c c' : Comment} {kind : String} {name : Option String} {f : Tag → Tag} {i : Nat}
  {field : Tag → Option String} {tags : List Tag}

/-! ## What a look-up selects -/

theorem position?_eq (c : Comment) (kind : String) (name : Option String) :
    c.position? kind name = c.heads.findIdx? (Tag.headAnswers kind name) := by
  rw [heads, List.findIdx?_map]
  rfl

theorem hasTag_eq_any_heads (c : Comment) (kind : String) (name : Option String) :
    c.hasTag kind name = c.heads.any (Tag.headAnswers kind name) := by
  rw [heads, List.any_map]
  rfl

/-- A look-up that has selected a tag still selects it when there are more tags. -/
theorem position?_of_heads (hheads : c.heads <+: c'.heads) (h : c.position? kind name = some i) :
    c'.position? kind name = some i := by
  obtain ⟨rest, hrest⟩ := hheads
  rw [position?_eq] at h ⊢
  rw [← hrest, List.findIdx?_append, h]
  rfl

theorem obtain_snd (c : Comment) (kind : String) (name : Option String) :
    (c.obtain kind name).2 = (c.position? kind name).getD c.tags.length := by
  rw [obtain]
  cases c.position? kind name <;> rfl

/-- A change that keeps kinds and names appends a tag just when nothing answers. -/
theorem heads_put_eq (hf : ∀ tag, (f tag).head = tag.head) (c : Comment) (kind : String)
    (name : Option String) :
    (c.put kind name f).heads = c.heads ++ if c.hasTag kind name then [] else [(kind, name)] := by
  rw [heads, tags_put, heads, hasTag]
  induction c.tags with
  | nil => exact congrArg (fun head => [head]) (hf _)
  | cons tag tags ih =>
    rw [putTag, List.any_cons]
    by_cases h : tag.answers kind name = true
    · rw [if_pos h, h, Bool.true_or, if_pos rfl, List.append_nil, List.map_cons, List.map_cons, hf]
    · rw [if_neg h, Bool.eq_false_iff.2 h, Bool.false_or, List.map_cons, ih, List.map_cons,
        List.cons_append]

/-- The position that a look-up selects is the one that it selects once the change has been made. -/
theorem position?_put (hf : ∀ tag, (f tag).head = tag.head) (c : Comment) (kind : String)
    (name : Option String) :
    (c.put kind name f).position? kind name = some (c.obtain kind name).2 := by
  rw [obtain_snd]
  cases hpos : c.position? kind name with
  | some j => exact position?_of_heads (heads_put hf c kind name) hpos
  | none =>
    have hmiss : c.hasTag kind name = false := by
      rw [hasTag, List.any_eq_false]
      exact fun tag htag => Bool.eq_false_iff.1 (List.findIdx?_eq_none_iff.1 hpos tag htag)
    rw [position?_eq] at hpos ⊢
    rw [heads_put_eq hf, hmiss, if_neg Bool.false_ne_true, List.findIdx?_append, hpos, Option.none_or]
    simp [Tag.headAnswers, heads]

/-- What stands at a position after a change. -/
theorem getElem?_tags_put (c : Comment) (kind : String) (name : Option String) (f : Tag → Tag) (i : Nat) :
    (c.put kind name f).tags[i]? =
      if (c.obtain kind name).2 = i then some (f (c.tags[i]?.getD (Tag.named kind name)))
      else c.tags[i]? := by
  rw [put, obtain]
  cases hpos : c.position? kind name with
  | some j =>
    show (c.tags.modify j f)[i]? = if j = i then _ else _
    rw [List.getElem?_modify]
    by_cases hj : j = i
    · obtain ⟨hlt, -⟩ := List.findIdx?_eq_some_iff_getElem.1 hpos
      rw [if_pos hj, ← hj, List.getElem?_eq_getElem hlt]
      simp
    · rw [if_neg hj]
      simp [hj]
  | none =>
    show ((c.tags ++ [Tag.named kind name]).modify c.tags.length f)[i]? = if c.tags.length = i then _ else _
    rw [List.getElem?_modify]
    by_cases hlast : c.tags.length = i
    · rw [if_pos hlast, ← hlast]
      simp
    · rw [if_neg hlast]
      rcases Nat.lt_or_gt_of_ne hlast with hgt | hlt
      · rw [List.getElem?_eq_none (by simp; omega), List.getElem?_eq_none (by omega)]
        rfl
      · rw [List.getElem?_append_left hlt]
        simp [hlast]

/-! ## Where the tags of the source go -/

/-- The positions that the look-ups of some tags select, one after the other: each tag is written over
the tag that it selects before the next one is looked up. -/
def selections : List Tag → Comment → List Nat
  | [], _ => []
  | tag :: tags, c =>
    (c.obtain tag.kind tag.name).2 :: selections tags (c.put tag.kind tag.name (overwrite tag))

/-- Only the tags decide what is selected. -/
theorem selections_congr (h : c.tags = c'.tags) : selections tags c = selections tags c' := by
  induction tags generalizing c c' with
  | nil => rfl
  | cons tag tags ih =>
    have hnext : (c.put tag.kind tag.name (overwrite tag)).tags =
        (c'.put tag.kind tag.name (overwrite tag)).tags := by
      rw [tags_put, tags_put, h]
    rw [selections, selections, ih hnext, obtain_snd, obtain_snd, position?, position?, h]

theorem tags_overwriteAll_congr (h : c.tags = c'.tags) :
    (overwriteAll tags c).tags = (overwriteAll tags c').tags := by
  induction tags generalizing c c' with
  | nil => exact h
  | cons tag tags ih => exact ih (by rw [tags_put, tags_put, h])

/-- A tag is written to the position that its look-up selects in the end. -/
theorem map_selections (tags : List Tag) (c : Comment) : (selections tags c).map some =
    tags.map fun tag => (overwriteAll tags c).position? tag.kind tag.name := by
  induction tags generalizing c with
  | nil => rfl
  | cons tag tags ih =>
    have hfirst : (overwriteAll tags (c.put tag.kind tag.name (overwrite tag))).position?
        tag.kind tag.name = some (c.obtain tag.kind tag.name).2 :=
      position?_of_heads (heads_overwriteAll tags _)
        (position?_put (head_overwrite tag) c tag.kind tag.name)
    rw [selections, List.map_cons, List.map_cons, ih, ← hfirst]
    rfl

/-! ## Which value is written last -/

/-- A field that a tag takes over from the one that is written over it, where that one has it. -/
structure TakenOver (field : Tag → Option String) : Prop where
  overwrite : ∀ source target, field (overwrite source target) = (field source).or (field target)
  named : ∀ kind name, field (Tag.named kind name) = none

theorem takenOver_type : TakenOver Tag.type :=
  ⟨fun _ _ => rfl, fun _ _ => rfl⟩

theorem takenOver_description : TakenOver Tag.description :=
  ⟨fun _ _ => rfl, fun _ _ => rfl⟩

/-- The last value of a field among the tags that are written to a position, each tag standing beside the
position that it is written to. -/
def lastWritten (field : Tag → Option String) (i : Nat) (written : List (Tag × Nat)) : Option String :=
  (written.filterMap fun w => if w.2 = i then field w.1 else none).getLast?

theorem lastWritten_cons (field : Tag → Option String) (i : Nat) (w : Tag × Nat)
    (written : List (Tag × Nat)) : lastWritten field i (w :: written) =
      (lastWritten field i written).or (if w.2 = i then field w.1 else none) := by
  rw [lastWritten, lastWritten, List.filterMap_cons]
  cases (if w.2 = i then field w.1 else none) with
  | none => exact (Option.or_none).symm
  | some value =>
    rw [List.getLast?_cons]
    cases (written.filterMap fun w => if w.2 = i then field w.1 else none).getLast? <;> rfl

/-- One tag is written. -/
theorem bind_put (hfield : TakenOver field) (c : Comment) (tag : Tag) (i : Nat) :
    (c.put tag.kind tag.name (overwrite tag)).tags[i]?.bind field =
      (if (c.obtain tag.kind tag.name).2 = i then field tag else none).or (c.tags[i]?.bind field) := by
  rw [getElem?_tags_put]
  split
  · cases c.tags[i]? with
    | none => simp [hfield.overwrite, hfield.named]
    | some target => simp [hfield.overwrite]
  · rw [Option.none_or]

/-- The last tag that is written to a position and has the field decides. -/
theorem bind_overwriteAll (hfield : TakenOver field) (tags : List Tag) (c : Comment) (i : Nat) :
    (overwriteAll tags c).tags[i]?.bind field =
      (lastWritten field i (tags.zip (selections tags c))).or (c.tags[i]?.bind field) := by
  induction tags generalizing c with
  | nil => rfl
  | cons tag tags ih =>
    have hrest := ih (c.put tag.kind tag.name (overwrite tag))
    rw [bind_put hfield] at hrest
    rw [selections, List.zip_cons_cons, lastWritten_cons, Option.or_assoc, ← hrest]
    rfl

/-! ## What can be looked up -/

theorem hasTag_of_mem_tags {tag : Tag} (htag : tag ∈ c.tags) : c.hasTag tag.kind tag.name = true := by
  rw [hasTag, List.any_eq_true]
  exact ⟨tag, htag, by simp [Tag.answers]⟩

/-- Every tag of a merged comment is looked up as one of the two comments says. -/
theorem mem_heads_overwriteAll {head : String × Option String}
    (h : head ∈ (overwriteAll tags c).heads) : head ∈ c.heads ∨ head ∈ tags.map Tag.head := by
  induction tags generalizing c with
  | nil => exact .inl h
  | cons tag tags ih =>
    rcases ih h with hput | hrest
    · rw [heads_put_eq (head_overwrite tag)] at hput
      rcases List.mem_append.1 hput with hbefore | hnew
      · exact .inl hbefore
      · split at hnew
        · exact absurd hnew List.not_mem_nil
        · rw [List.mem_singleton.1 hnew]
          exact .inr List.mem_cons_self
    · exact .inr (List.mem_cons_of_mem _ hrest)

/-- What one of the tags answers is answered in the end. -/
theorem hasTag_overwriteAll_of_any (h : tags.any (Tag.answers kind name) = true) (c : Comment) :
    (overwriteAll tags c).hasTag kind name = true := by
  obtain ⟨tag, htag, hanswers⟩ := List.any_eq_true.1 h
  obtain ⟨tag', hmem, hkind, hname⟩ := exists_tag_of_hasTag (hasTag_overwriteAll htag c)
  rw [hasTag, List.any_eq_true]
  refine ⟨tag', hmem, ?_⟩
  rw [Tag.answers, Bool.and_eq_true, beq_iff_eq, Bool.or_eq_true, beq_iff_eq] at hanswers ⊢
  refine ⟨by rw [hkind, hanswers.1], ?_⟩
  rcases hanswers.2 with hnone | hsome
  · exact .inl hnone
  · cases name with
    | none => exact .inl rfl
    | some wanted => exact .inr (hname wanted hsome)

theorem hasTag_overwriteAll_iff (tags : List Tag) (c : Comment) :
    (overwriteAll tags c).hasTag kind name = true ↔
      tags.any (Tag.answers kind name) = true ∨ c.hasTag kind name = true := by
  constructor
  · intro h
    rw [hasTag_eq_any_heads, List.any_eq_true] at h
    obtain ⟨head, hhead, hanswers⟩ := h
    rcases mem_heads_overwriteAll hhead with hold | hnew
    · right
      rw [hasTag_eq_any_heads, List.any_eq_true]
      exact ⟨head, hold, hanswers⟩
    · left
      obtain ⟨tag, htag, rfl⟩ := List.mem_map.1 hnew
      exact List.any_eq_true.2 ⟨tag, htag, hanswers⟩
  · rintro (hsource | htarget)
    · exact hasTag_overwriteAll_of_any hsource c
    · exact hasTag_of_heads (heads_overwriteAll tags c) htarget

/-! ## Merging again -/

/-- Nothing is appended where everything is answered. -/
theorem heads_overwriteAll_of_hasTag (h : ∀ tag ∈ tags, c.hasTag tag.kind tag.name = true) :
    (overwriteAll tags c).heads = c.heads := by
  induction tags generalizing c with
  | nil => rfl
  | cons tag tags ih =>
    have hput : (c.put tag.kind tag.name (overwrite tag)).heads = c.heads := by
      rw [heads_put_eq (head_overwrite tag), h tag List.mem_cons_self, if_pos rfl, List.append_nil]
    rw [← hput]
    refine ih fun other hother => ?_
    rw [hasTag_eq_any_heads, hput, ← hasTag_eq_any_heads]
    exact h other (List.mem_cons_of_mem tag hother)

/-- Comments whose tags agree in what they are looked up by, in type and in description have the same
tags. -/
theorem tags_eq_of_bind (hheads : c.heads = c'.heads)
    (htype : ∀ i : Nat, c.tags[i]?.bind Tag.type = c'.tags[i]?.bind Tag.type)
    (hdescription : ∀ i : Nat,
      c.tags[i]?.bind Tag.description = c'.tags[i]?.bind Tag.description) : c.tags = c'.tags := by
  refine List.ext_getElem? fun i => ?_
  have hhead : c.tags[i]?.map Tag.head = c'.tags[i]?.map Tag.head := by
    rw [← List.getElem?_map, ← List.getElem?_map]
    exact congrArg (·[i]?) hheads
  have ht := htype i
  have hd := hdescription i
  cases hfirst : c.tags[i]? with
  | none =>
    rw [hfirst] at hhead
    exact (Option.map_eq_none_iff.1 hhead.symm).symm
  | some tag =>
    rw [hfirst] at hhead ht hd
    obtain ⟨tag', hsecond, hsame⟩ := Option.map_eq_some_iff.1 hhead.symm
    rw [hsecond] at ht hd
    obtain ⟨hkind, hname⟩ := Prod.mk.inj hsame
    rw [hsecond, Option.some_inj]
    obtain ⟨_, _, _, _⟩ := tag
    obtain ⟨_, _, _, _⟩ := tag'
    cases hkind
    cases hname
    cases ht
    cases hd
    rfl

/-- Writing the same tags once more changes nothing. -/
theorem tags_overwriteAll_overwriteAll (tags : List Tag) (c : Comment) :
    (overwriteAll tags (overwriteAll tags c)).tags = (overwriteAll tags c).tags := by
  have hheads : (overwriteAll tags (overwriteAll tags c)).heads = (overwriteAll tags c).heads :=
    heads_overwriteAll_of_hasTag fun tag htag => hasTag_overwriteAll htag c
  -- The same positions are selected both times.
  have hselections : selections tags (overwriteAll tags c) = selections tags c := by
    refine List.map_injective_iff.2 (fun _ _ => Option.some.inj) ?_
    rw [map_selections, map_selections]
    refine List.map_congr_left fun tag _ => ?_
    rw [position?_eq, position?_eq, hheads]
  have hvalue : ∀ {field : Tag → Option String}, TakenOver field → ∀ i : Nat,
      (overwriteAll tags (overwriteAll tags c)).tags[i]?.bind field =
        (overwriteAll tags c).tags[i]?.bind field := by
    intro field hfield i
    rw [bind_overwriteAll hfield tags (overwriteAll tags c), hselections,
      bind_overwriteAll hfield tags c, ← Option.or_assoc, Option.or_self]
  exact tags_eq_of_bind hheads (hvalue takenOver_type) (hvalue takenOver_description)

theorem nodup_heads_overwriteAll (tags : List Tag) (h : c.heads.Nodup) : (overwriteAll tags c).heads.Nodup := by
  induction tags generalizing c with
  | nil => exact h
  | cons tag tags ih =>
    refine ih ?_
    rw [heads_put_eq (head_overwrite tag)]
    split
    · rwa [List.append_nil]
    · rename_i hmiss
      rw [List.nodup_append]
      refine ⟨h, List.nodup_singleton _, ?_⟩
      rintro head hhead _ hnew rfl
      rw [List.mem_singleton] at hnew
      obtain ⟨other, hother, hsame⟩ := List.mem_map.1 (hnew ▸ hhead)
      obtain ⟨hkind, hname⟩ := Prod.mk.inj hsame
      have hanswered := hasTag_of_mem_tags hother
      rw [hkind, hname] at hanswered
      exact hmiss hanswered

/-! ## Two comments -/

/-- Merging is a union. The tags of the target keep their places, kinds and names, and new ones come
behind them; a look-up is answered just when one of the two comments answers it; each tag of the source is
written to the position that its look-up selects, then and in the end; each tag has the type and the
description of the last tag that was written to its position and had one; merging once more changes no tag;
and tags that can be told apart stay so. -/
theorem mergeInto_union (source target : Comment) :
    let merged := source.mergeInto target
    let written := source.tags.zip (selections source.tags target)
    target.heads <+: merged.heads ∧
      (∀ kind name, merged.hasTag kind name = true ↔
        source.hasTag kind name = true ∨ target.hasTag kind name = true) ∧
      ((selections source.tags target).map some =
        source.tags.map fun tag => merged.position? tag.kind tag.name) ∧
      (∀ i : Nat,
        merged.tags[i]?.bind Tag.type =
            (lastWritten Tag.type i written).or (target.tags[i]?.bind Tag.type) ∧
          merged.tags[i]?.bind Tag.description =
            (lastWritten Tag.description i written).or (target.tags[i]?.bind Tag.description)) ∧
      (source.mergeInto merged).tags = merged.tags ∧
      (target.heads.Nodup → merged.heads.Nodup) := by
  intro merged written
  let described : Comment :=
    { target with description := mergeDescription target.description source.description }
  have hmerged : merged = overwriteAll source.tags described := rfl
  have hselections : selections source.tags target = selections source.tags described := selections_congr rfl
  have hwritten : written = source.tags.zip (selections source.tags described) :=
    congrArg source.tags.zip hselections
  refine ⟨heads_mergeInto source target, ?_, ?_, ?_, ?_, ?_⟩
  · intro kind name
    rw [hmerged, hasTag_overwriteAll_iff]
    rfl
  · rw [hselections, map_selections, hmerged]
  · intro i
    rw [hmerged, hwritten]
    exact ⟨bind_overwriteAll takenOver_type source.tags described i,
      bind_overwriteAll takenOver_description source.tags described i⟩
  · have hagain : (source.mergeInto merged).tags = (overwriteAll source.tags merged).tags :=
      tags_overwriteAll_congr rfl
    rw [hagain, hmerged, tags_overwriteAll_overwriteAll]
  · exact nodup_heads_overwriteAll (c := described) source.tags

/-- A comment in which a tag without a name stands before and behind a named one of its kind. -/
def sampleSource : Comment where
  description := some "More."
  tags :=
    [{ kind := "param", type := some "number" },
      { kind := "param", name := some "y", type := some "string", description := some "The other." },
      { kind := "see", description := some "First." },
      { kind := "see", name := some "B" },
      { kind := "see", description := some "Last." }]

/-- A comment with a named tag that a look-up without a name selects. -/
def sampleTarget : Comment where
  tags :=
    [{ kind := "param", name := some "x", type := some "any", description := some "The one." },
      { kind := "returns" }]

theorem mergeInto_union_sampleSource :
    let merged := sampleSource.mergeInto sampleTarget
    sampleTarget.heads.Nodup ∧ merged.heads.Nodup ∧ sampleTarget.heads <+: merged.heads ∧
      merged.hasTag "see" (some "B") = true ∧ merged.hasTag "see" (some "A") = false ∧
      selections sampleSource.tags sampleTarget = [0, 2, 3, 4, 3] ∧
      merged.tags[0]?.bind Tag.type = some "number" ∧
      merged.tags[0]?.bind Tag.description = some "The one." ∧
      merged.tags[3]?.bind Tag.description = some "Last." ∧
      (sampleSource.mergeInto merged).tags = merged.tags := by
  intro merged
  obtain ⟨hkept, hlookup, -, hvalue, hagain, hdistinct⟩ := mergeInto_union sampleSource sampleTarget
  have hnodup : sampleTarget.heads.Nodup := by decide +kernel
  have hmiss : ¬ (sampleSource.hasTag "see" (some "A") = true ∨
      sampleTarget.hasTag "see" (some "A") = true) := by decide +kernel
  refine ⟨hnodup, hdistinct hnodup, hkept, (hlookup "see" (some "B")).2 (.inl (by decide +kernel)),
    Bool.eq_false_iff.2 fun h => hmiss ((hlookup "see" (some "A")).1 h), by decide +kernel, ?_, ?_, ?_, hagain⟩
  · exact (hvalue 0).1.trans (by decide +kernel)
  · exact (hvalue 0).2.trans (by decide +kernel)
  · exact (hvalue 3).2.trans (by decide +kernel)

end Comment

end DocBlock
