import DocBlock.Proofs.Comment.TagKinds

/-! # Comments that are merged

A comment is merged into another one tag by tag: each tag is looked up by its kind and its name, and is only
appended when nothing answers. So the tags that were there stay first, with their kinds and names
(`heads_mergeInto`), and every tag that was merged is answered (`hasTag_mergeInto`). A tag without a name is
answered by any tag of its kind. `Gathers` says what is left of all comments that have been merged into one.
-/

namespace DocBlock

/-- What a tag is looked up by. -/
def Tag.head (tag : Tag) : String × Option String :=
  (tag.kind, tag.name)

namespace Comment

variable {c c' first s target : Comment} {others : List Comment} {kind : String} {name : Option String}
  {f : Tag → Tag} {tag : Tag}

/-- What the tags of a comment are looked up by, in order. -/
def heads (c : Comment) : List (String × Option String) :=
  c.tags.map Tag.head

theorem answers_eq_of_head {tag' : Tag} (h : tag'.head = tag.head) (kind : String)
    (name : Option String) : tag'.answers kind name = tag.answers kind name := by
  obtain ⟨hkind, hname⟩ := Prod.mk.inj h
  rw [Tag.answers, Tag.answers, hkind, hname]

/-- A look-up only depends on what the tags are looked up by. -/
theorem hasTag_of_heads (hheads : c.heads <+: c'.heads) (h : c.hasTag kind name = true) :
    c'.hasTag kind name = true := by
  rw [hasTag, List.any_eq_true] at h ⊢
  obtain ⟨tag, hmem, hanswers⟩ := h
  have hhead : tag.head ∈ c'.heads := hheads.subset (List.mem_map_of_mem hmem)
  obtain ⟨tag', hmem', heq⟩ := List.mem_map.1 hhead
  refine ⟨tag', hmem', ?_⟩
  rw [answers_eq_of_head heq, hanswers]

/-- What answers for a tag is of its kind and, when it has a name, of its name. -/
theorem exists_tag_of_hasTag (h : c.hasTag tag.kind tag.name = true) :
    ∃ tag' ∈ c.tags, tag'.kind = tag.kind ∧ ∀ name, tag.name = some name → tag'.name = some name := by
  rw [hasTag, List.any_eq_true] at h
  obtain ⟨tag', hmem, hanswers⟩ := h
  rw [Tag.answers, Bool.and_eq_true, beq_iff_eq, Bool.or_eq_true, beq_iff_eq] at hanswers
  refine ⟨tag', hmem, hanswers.1, fun name hname => ?_⟩
  rcases hanswers.2 with hnone | hsome
  · rw [hname] at hnone
    cases hnone
  · rw [hsome, hname]

/-! ## One tag -/

/-- A change that keeps kinds and names appends at most one tag. -/
theorem heads_put (hf : ∀ tag, (f tag).head = tag.head) (c : Comment) (kind : String)
    (name : Option String) : c.heads <+: (c.put kind name f).heads := by
  rw [heads, heads, tags_put]
  induction c.tags with
  | nil => exact List.nil_prefix
  | cons tag tags ih =>
    rw [putTag]
    split
    · exact ⟨[], by rw [List.append_nil, List.map_cons, List.map_cons, hf]⟩
    · rw [List.map_cons, List.map_cons]
      exact List.cons_prefix_cons.2 ⟨rfl, ih⟩

theorem hasTag_put (hf : ∀ tag, (f tag).head = tag.head) (c : Comment) (kind : String)
    (name : Option String) : (c.put kind name f).hasTag kind name = true := by
  obtain ⟨tag, hanswers, hmem⟩ := exists_mem_put c kind name f
  rw [hasTag, List.any_eq_true]
  refine ⟨f tag, hmem, ?_⟩
  rw [answers_eq_of_head (hf tag), hanswers]

/-! ## All tags -/

theorem head_overwrite (source target : Tag) : (overwrite source target).head = target.head :=
  rfl

/-- Writing some tags over those that answer them, or behind all others. -/
def overwriteAll (tags : List Tag) (c : Comment) : Comment :=
  tags.foldl (fun c tag => c.put tag.kind tag.name (overwrite tag)) c

theorem heads_overwriteAll (tags : List Tag) (c : Comment) : c.heads <+: (overwriteAll tags c).heads := by
  induction tags generalizing c with
  | nil => exact List.prefix_refl _
  | cons tag tags ih => exact (heads_put (head_overwrite tag) c tag.kind tag.name).trans (ih _)

theorem hasTag_overwriteAll {tags : List Tag} (htag : tag ∈ tags) (c : Comment) :
    (overwriteAll tags c).hasTag tag.kind tag.name = true := by
  induction tags generalizing c with
  | nil => exact absurd htag List.not_mem_nil
  | cons other tags ih =>
    rcases List.mem_cons.1 htag with rfl | htag
    · exact hasTag_of_heads (heads_overwriteAll tags _) (hasTag_put (head_overwrite tag) c tag.kind tag.name)
    · exact ih htag _

theorem description_overwriteAll (tags : List Tag) (c : Comment) :
    (overwriteAll tags c).description = c.description := by
  induction tags generalizing c with
  | nil => rfl
  | cons tag tags ih => exact (ih _).trans (description_put c tag.kind tag.name _)

/-- The tags of a comment that another one is merged into come first. -/
theorem heads_mergeInto (s target : Comment) : target.heads <+: (s.mergeInto target).heads :=
  heads_overwriteAll s.tags { target with description := mergeDescription target.description s.description }

/-- Each tag that is merged is answered. -/
theorem hasTag_mergeInto (htag : tag ∈ s.tags) (target : Comment) :
    (s.mergeInto target).hasTag tag.kind tag.name = true :=
  hasTag_overwriteAll htag _

theorem description_mergeInto (s target : Comment) :
    (s.mergeInto target).description = mergeDescription target.description s.description :=
  description_overwriteAll s.tags _

/-! ## Prose -/

/-- The descriptions of several comments that are not empty. -/
def paragraphs (comments : List Comment) : List String :=
  (comments.filterMap (·.description)).filter (· ≠ "")

/-- The descriptions of several comments as one, with a blank line between each two. -/
def mergedProse (comments : List Comment) : String :=
  Text.joinStrings "\n\n" (paragraphs comments)

theorem paragraphs_append (comments others : List Comment) :
    paragraphs (comments ++ others) = paragraphs comments ++ paragraphs others := by
  rw [paragraphs, List.filterMap_append, List.filter_append, paragraphs, paragraphs]

theorem joinStrings_concat {sep : String} {pieces : List String} (hne : pieces ≠ []) (piece : String) :
    Text.joinStrings sep (pieces ++ [piece]) = Text.joinStrings sep pieces ++ sep ++ piece := by
  induction pieces with
  | nil => exact absurd rfl hne
  | cons first rest ih =>
    cases rest with
    | nil => rfl
    | cons next rest =>
      have hrest : Text.joinStrings sep (next :: rest ++ [piece]) =
          Text.joinStrings sep (next :: rest) ++ sep ++ piece := ih (List.cons_ne_nil _ _)
      show first ++ sep ++ Text.joinStrings sep (next :: rest ++ [piece]) = _
      rw [hrest]
      simp [Text.joinStrings, String.append_assoc]

theorem joinStrings_eq_empty {sep : String} {pieces : List String} (hpieces : ∀ piece ∈ pieces, piece ≠ "")
    (h : Text.joinStrings sep pieces = "") : pieces = [] := by
  cases pieces with
  | nil => rfl
  | cons first rest =>
    have hfirst := hpieces first List.mem_cons_self
    cases rest with
    | nil => exact absurd h hfirst
    | cons next rest =>
      have hjoin : first ++ sep ++ Text.joinStrings sep (next :: rest) = "" := h
      simp at hjoin
      exact absurd hjoin.1.1 hfirst

/-- A merged description stands behind the prose that has been gathered before. -/
theorem mergedProse_concat (h : target.description.getD "" = mergedProse others) (s : Comment) :
    (mergeDescription target.description s.description).getD "" = mergedProse (others ++ [s]) := by
  rw [mergedProse, paragraphs_append]
  cases hdescription : s.description with
  | none =>
    have hnone : paragraphs [s] = [] := by simp [paragraphs, hdescription]
    rw [hnone, List.append_nil]
    exact h
  | some text =>
    by_cases hempty : text = ""
    · have hnone : paragraphs [s] = [] := by simp [paragraphs, hdescription, hempty]
      rw [hnone, List.append_nil, hempty]
      exact h
    · have hone : paragraphs [s] = [text] := by simp [paragraphs, hdescription, hempty]
      have hmerged : (mergeDescription target.description (some text)).getD "" =
          if target.description.getD "" = "" then text
          else target.description.getD "" ++ "\n\n" ++ text := by
        cases htarget : target.description with
        | none => simp [mergeDescription, hempty]
        | some existing => by_cases hexisting : existing = "" <;> simp [mergeDescription, hempty, hexisting]
      rw [hmerged, h, hone]
      split
      · rename_i hnone
        have hpieces : ∀ piece ∈ paragraphs others, piece ≠ "" :=
          fun piece hpiece => of_decide_eq_true (List.mem_filter.1 hpiece).2
        rw [joinStrings_eq_empty hpieces hnone]
        rfl
      · rename_i hsome
        refine (joinStrings_concat ?_ text).symm
        intro hnil
        rw [mergedProse, hnil] at hsome
        exact hsome rfl

/-! ## Everything that is merged -/

/-- A comment that was `first` at the beginning, and into which `others` have been merged. -/
structure Gathers (first : Comment) (others : List Comment) (c : Comment) : Prop where
  kept : first.heads <+: c.heads
  tags : ∀ s ∈ first :: others, ∀ tag ∈ s.tags, c.hasTag tag.kind tag.name = true
  description : c.description.getD "" = mergedProse (first :: others)

namespace Gathers

theorem self (c : Comment) : Gathers c [] c where
  kept := List.prefix_refl _
  tags s hs tag htag := by
    rw [List.mem_singleton.1 hs] at htag
    rw [hasTag, List.any_eq_true]
    exact ⟨tag, htag, by simp [Tag.answers]⟩
  description := by
    cases hdescription : c.description with
    | none => simp [mergedProse, paragraphs, hdescription, Text.joinStrings]
    | some text =>
      by_cases hempty : text = "" <;>
        simp [mergedProse, paragraphs, hdescription, hempty, Text.joinStrings]

theorem mono (h : Gathers first others c) (hheads : c.heads <+: c'.heads)
    (hdescription : c'.description = c.description) : Gathers first others c' where
  kept := h.kept.trans hheads
  tags s hs tag htag := hasTag_of_heads hheads (h.tags s hs tag htag)
  description := by rw [hdescription, h.description]

theorem mergeInto (h : Gathers first others c) (s : Comment) :
    Gathers first (others ++ [s]) (s.mergeInto c) where
  kept := h.kept.trans (heads_mergeInto s c)
  tags s' hs' tag htag := by
    rw [← List.cons_append] at hs'
    rcases List.mem_append.1 hs' with hbefore | hlast
    · exact hasTag_of_heads (heads_mergeInto s c) (h.tags s' hbefore tag htag)
    · rw [List.mem_singleton.1 hlast] at htag
      exact hasTag_mergeInto htag c
  description := by
    rw [description_mergeInto, mergedProse_concat h.description]
    rfl

theorem tags_ne_nil (h : Gathers first others c) (hfirst : first.tags ≠ []) : c.tags ≠ [] := by
  intro hnil
  have hheads : first.heads <+: [] := by
    have := h.kept
    rw [heads, heads, hnil] at this
    exact this
  exact hfirst (List.map_eq_nil_iff.1 (List.prefix_nil.1 hheads))

end Gathers

end Comment

end DocBlock
