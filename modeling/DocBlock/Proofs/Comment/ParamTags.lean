import Mathlib.Data.List.Nodup
import DocBlock.Proofs.Comment.TagKinds

/-! # The tags for one parameter

A tag is for the parameter whose bare name it has (`tagsFor`). A look-up for a parameter tries fewer
spellings than that; which ones depends on whether the parameter repeats and whether it may be left out
(`isLookedFor`). So where a comment has one tag for a parameter, a change for it either changes that tag
or leaves it there and appends another one (`exists_tagsFor_putParam`). The tags for other parameters stay
as they are. -/

namespace DocBlock.Comment

variable {c c' : Comment} {name other : String} {repeatable optional : Bool} {f : Tag → Tag} {tag : Tag}
  {ks : List String}

/-- Whether a tag is for a parameter. -/
def isTagFor (name : String) (tag : Tag) : Bool :=
  tag.kind == "param" && tag.name.map bareParamName == some name

/-- The tags for a parameter. -/
def tagsFor (c : Comment) (name : String) : List Tag :=
  c.tags.filter (isTagFor name)

/-- Whether a tag is in one of the spellings that a look-up for a parameter tries. -/
def isLookedFor (name : String) (repeatable optional : Bool) (tag : Tag) : Bool :=
  ((paramSpellings name repeatable optional).any fun s => tag.answers "param" (some s)) ||
    (optional && isDefaultedParam name tag)

theorem isTagFor_iff : isTagFor name tag = true ↔
    tag.kind = "param" ∧ tag.name.map bareParamName = some name := by
  rw [isTagFor, Bool.and_eq_true, beq_iff_eq, beq_iff_eq]

theorem isTagFor_of_isLookedFor (hname : PlainName name)
    (h : isLookedFor name repeatable optional tag = true) : isTagFor name tag = true := by
  rw [isTagFor_iff]
  rw [isLookedFor, Bool.or_eq_true, List.any_eq_true] at h
  rcases h with ⟨spelling, hspelling, hanswers⟩ | hdefaulted
  · rw [Tag.answers, Bool.and_eq_true, beq_iff_eq, Option.isNone_some, Bool.false_or, beq_iff_eq] at hanswers
    refine ⟨hanswers.1, ?_⟩
    rw [hanswers.2, Option.map_some, bareParamName_of_mem_paramSpellings hname hspelling]
  · rw [Bool.and_eq_true] at hdefaulted
    exact bareParamName_of_isDefaultedParam hname hdefaulted.2

theorem Spares.tagsFor (h : Spares ks c c') (hks : "param" ∉ ks) (name : String) :
    c'.tagsFor name = c.tagsFor name := by
  have htags : ∀ c : Comment, c.tagsFor name =
      (c.tagsOf "param").filter fun tag => tag.name.map bareParamName == some name := by
    intro c
    rw [tagsOf, List.filter_filter]
    exact List.filter_congr fun tag _ => Bool.and_comm _ _
  rw [htags, htags, h "param" hks]

/-- A comment that documents no parameter twice has at most one tag for each. -/
theorem length_tagsFor_le (h : c.paramNames.Nodup) (name : String) : (c.tagsFor name).length ≤ 1 := by
  have hcount : (c.tagsFor name).length = c.paramNames.count name := by
    rw [tagsFor, paramNames]
    induction c.tags with
    | nil => rfl
    | cons tag tags ih =>
      rw [List.filter_cons, List.filterMap_cons]
      by_cases hkind : tag.kind = "param"
      · cases hwritten : tag.name <;> grind [isTagFor]
      · grind [isTagFor]
  rw [hcount]
  exact List.nodup_iff_count_le_one.1 h name

/-! ## One change -/

/-- A position that answers a look-up for a parameter has a tag in a spelling that is tried. -/
theorem isLookedFor_of_paramPosition? {i : Nat}
    (hpos : c.paramPosition? name repeatable optional = some i) :
    ∃ tag, c.tags[i]? = some tag ∧ isLookedFor name repeatable optional tag = true := by
  rw [paramPosition?] at hpos
  split at hpos
  · rename_i j hfound
    obtain rfl := Option.some.inj hpos
    obtain ⟨spelling, hspelling, hspelled⟩ := List.exists_of_findSome?_eq_some hfound
    obtain ⟨hlt, hanswers, -⟩ := List.findIdx?_eq_some_iff_getElem.1 hspelled
    refine ⟨c.tags[j], List.getElem?_eq_getElem hlt, ?_⟩
    rw [isLookedFor, Bool.or_eq_true, List.any_eq_true]
    exact .inl ⟨spelling, hspelling, hanswers⟩
  · split at hpos
    · rename_i hoptional
      obtain ⟨hlt, hdefaulted, -⟩ := List.findIdx?_eq_some_iff_getElem.1 hpos
      refine ⟨c.tags[i], List.getElem?_eq_getElem hlt, ?_⟩
      rw [isLookedFor, hoptional, hdefaulted, Bool.true_and, Bool.or_true]
    · cases hpos

/-- Where no position answers, no tag is in a spelling that is tried. -/
theorem isLookedFor_of_paramPosition?_eq_none (hpos : c.paramPosition? name repeatable optional = none)
    (htag : tag ∈ c.tags) : isLookedFor name repeatable optional tag = false := by
  rw [paramPosition?] at hpos
  split at hpos
  · cases hpos
  · rename_i hnone
    rw [isLookedFor, Bool.or_eq_false_iff, List.any_eq_false]
    constructor
    · intro spelling hspelling
      have hspelled := List.findSome?_eq_none_iff.1 hnone spelling hspelling
      rw [Bool.not_eq_true]
      exact List.findIdx?_eq_none_iff.1 hspelled tag htag
    · cases optional with
      | false => rfl
      | true => exact List.findIdx?_eq_none_iff.1 hpos tag htag

/-- A change for a parameter changes a tag that is looked for, or appends one where there is none. -/
theorem putParam_cases (c : Comment) (name : String) (repeatable optional : Bool) (f : Tag → Tag) :
    (∃ before tag after, c.tags = before ++ tag :: after ∧
        isLookedFor name repeatable optional tag = true ∧
        (c.putParam name repeatable optional f).tags = before ++ f tag :: after) ∨
      (∀ tag ∈ c.tags, isLookedFor name repeatable optional tag = false) ∧
        (c.putParam name repeatable optional f).tags =
          c.tags ++ [f (Tag.named "param" (some name))] := by
  rw [putParam, obtainParam]
  cases hpos : c.paramPosition? name repeatable optional with
  | some i =>
    obtain ⟨found, hfound, hlooked⟩ := isLookedFor_of_paramPosition? hpos
    obtain ⟨before, tag, after, htags, hlength, hmodified⟩ :=
      List.exists_of_modify f (lt_length_of_getElem? hfound)
    obtain rfl : tag = found := by
      rw [htags, ← hlength, List.getElem?_append_right (Nat.le_refl _), Nat.sub_self] at hfound
      exact Option.some.inj hfound
    exact .inl ⟨before, tag, after, htags, hlooked, hmodified⟩
  | none =>
    refine .inr ⟨fun tag htag => isLookedFor_of_paramPosition?_eq_none hpos htag, ?_⟩
    show (c.tags ++ [_]).modify c.tags.length f = _
    rw [List.modify_eq_take_cons_drop (by simp)]
    simp

/-- The tags for other parameters stay as they are. -/
theorem tagsFor_putParam_of_ne (hname : PlainName name) (hother : other ≠ name)
    (hf : ∀ tag, tag.kind = "param" → isTagFor name (f tag) = true) (c : Comment)
    (repeatable optional : Bool) :
    (c.putParam name repeatable optional f).tagsFor other = c.tagsFor other := by
  have hnot : ∀ {tag}, isTagFor name tag = true → ¬isTagFor other tag = true := by
    intro tag htag
    rw [isTagFor_iff, (isTagFor_iff.1 htag).2]
    rintro ⟨-, hsame⟩
    exact hother (Option.some.inj hsame).symm
  rw [tagsFor, tagsFor]
  rcases putParam_cases c name repeatable optional f with
    ⟨before, tag, after, htags, hlooked, hchanged⟩ | ⟨-, happended⟩
  · have htag := isTagFor_of_isLookedFor hname hlooked
    rw [hchanged, htags, List.filter_append, List.filter_append, List.filter_cons_of_neg (hnot htag),
      List.filter_cons_of_neg (hnot (hf tag (isTagFor_iff.1 htag).1))]
  · rw [happended, List.filter_append, List.filter_cons_of_neg (hnot (hf _ rfl)), List.filter_nil,
      List.append_nil]

/-- Afterwards the last tag for the parameter has been changed or made. A tag that was there before is
still there besides just when it is in a spelling that is not looked for. -/
theorem exists_tagsFor_putParam (hname : PlainName name) (hone : (c.tagsFor name).length ≤ 1)
    (hf : ∀ tag, tag.kind = "param" → isTagFor name (f tag) = true) (repeatable optional : Bool) :
    ∃ tag, (c.putParam name repeatable optional f).tagsFor name =
      ((c.tagsFor name).filter fun tag => !isLookedFor name repeatable optional tag) ++ [f tag] := by
  rcases putParam_cases c name repeatable optional f with
    ⟨before, tag, after, htags, hlooked, hchanged⟩ | ⟨hnone, happended⟩
  · have htag := isTagFor_of_isLookedFor hname hlooked
    -- The tag that has been changed was the only one for the parameter.
    have hsplit : c.tagsFor name = before.filter (isTagFor name) ++ tag :: after.filter (isTagFor name) := by
      rw [tagsFor, htags, List.filter_append, List.filter_cons_of_pos htag]
    rw [hsplit, List.length_append, List.length_cons] at hone
    have hbefore : before.filter (isTagFor name) = [] := List.eq_nil_of_length_eq_zero (by omega)
    have hafter : after.filter (isTagFor name) = [] := List.eq_nil_of_length_eq_zero (by omega)
    refine ⟨tag, ?_⟩
    rw [hsplit, hbefore, hafter, tagsFor, hchanged, List.filter_append,
      List.filter_cons_of_pos (hf tag (isTagFor_iff.1 htag).1), hbefore, hafter, List.nil_append,
      List.nil_append, List.filter_singleton, hlooked]
    rfl
  · refine ⟨Tag.named "param" (some name), ?_⟩
    have hkept : ((c.tagsFor name).filter fun tag => !isLookedFor name repeatable optional tag) =
        c.tagsFor name := by
      rw [List.filter_eq_self]
      intro tag htag
      rw [hnone tag (List.mem_filter.1 htag).1]
      rfl
    rw [hkept, tagsFor, happended, List.filter_append, List.filter_cons_of_pos (hf _ rfl), List.filter_nil,
      tagsFor]

end DocBlock.Comment
