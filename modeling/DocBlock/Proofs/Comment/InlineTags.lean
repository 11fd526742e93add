import DocBlock.Comment.Reader
import DocBlock.Proofs.Text.Lines

/-! # Tags in the middle of a line

A line is cut before each tag that opens in it. `opensTag` says whether there is such a tag; a line
without one is a single piece, and the pieces of a line have none themselves. Whether a tag opens in
a text does not change when runs of blanks in it become single spaces (`Tames`), which is what
reading and writing a tag does to its line. -/

namespace DocBlock.Comment

open DocBlock.Text (isBlank trimEnd trimStart)

variable {start : Bool} {depth : Nat} {previous c : Char} {cs w x y : List Char}
  {ls : List (List Char)}

/-! ## Where a line is cut -/

/-- Whether a tag opens in the rest of a line. -/
def opensTag (start : Bool) (depth : Nat) (previous : Char) : List Char → Bool
  | [] => false
  | c :: cs =>
    (c = '@' && depth = 0 && !start && isBlank previous && startsAlphabetic cs) ||
      opensTag false (braceDepth depth c) c cs

theorem consFirst_ne_nil (c : Char) (pieces : List (List Char)) : Text.consFirst c pieces ≠ [] := by
  cases pieces <;> simp [Text.consFirst]

theorem cutTags_ne_nil (start : Bool) (depth : Nat) (previous : Char) (cs : List Char) :
    cutTags start depth previous cs ≠ [] := by
  cases cs with
  | nil => simp [cutTags]
  | cons c cs =>
    rw [cutTags]
    split
    · simp
    · exact consFirst_ne_nil c _

/-- One piece more stands where the line is cut. -/
theorem cutTags_cons (h : cutTags false (braceDepth depth c) c cs = w :: ls) :
    cutTags start depth previous (c :: cs) =
      if c = '@' && depth = 0 && !start && isBlank previous && startsAlphabetic cs then
        [] :: (c :: w) :: ls
      else (c :: w) :: ls := by
  rw [cutTags, h, Text.consFirst]

/-- The pieces of a line make up the line. -/
theorem flatten_cutTags (start : Bool) (depth : Nat) (previous : Char) (cs : List Char) :
    (cutTags start depth previous cs).flatten = cs := by
  induction cs generalizing start depth previous with
  | nil => rfl
  | cons c cs ih =>
    obtain ⟨first, others, hcut⟩ :=
      List.exists_cons_of_ne_nil (cutTags_ne_nil false (braceDepth depth c) c cs)
    have hflat := ih false (braceDepth depth c) c
    rw [hcut, List.flatten_cons] at hflat
    rw [cutTags_cons hcut]
    split <;> simp [hflat]

/-- A line in which no tag opens is a single piece, and only such a line is. -/
theorem cutTags_eq_singleton_iff :
    cutTags start depth previous cs = [cs] ↔ opensTag start depth previous cs = false := by
  induction cs generalizing start depth previous with
  | nil => simp [cutTags, opensTag]
  | cons c cs ih =>
    obtain ⟨first, others, hcut⟩ :=
      List.exists_cons_of_ne_nil (cutTags_ne_nil false (braceDepth depth c) c cs)
    rw [cutTags_cons hcut, opensTag, Bool.or_eq_false_iff]
    split
    · rename_i hopen
      simp [hopen]
    · rename_i hopen
      rw [← ih, hcut]
      simp [hopen]

/-- No tag opens in the beginning of a text in which none opens. -/
theorem opensTag_of_prefix (hpre : x <+: y) (h : opensTag start depth previous y = false) :
    opensTag start depth previous x = false := by
  induction x generalizing start depth previous y with
  | nil => rfl
  | cons c x ih =>
    obtain ⟨tail, rfl⟩ := hpre
    rw [List.cons_append, opensTag, Bool.or_eq_false_iff] at h
    rw [opensTag, Bool.or_eq_false_iff]
    refine ⟨?_, ih (List.prefix_append x tail) h.2⟩
    cases x with
    | nil => simp [startsAlphabetic]
    | cons d x => exact h.1

/-- No tag opens in the middle of a piece of a line. -/
theorem opensTag_of_cutTags (h : cutTags start depth previous cs = w :: ls) :
    opensTag start depth previous w = false ∧ ∀ piece ∈ ls, opensTag true 0 ' ' piece = false := by
  induction cs generalizing start depth previous w ls with
  | nil =>
    obtain ⟨rfl, rfl⟩ := List.cons.inj h
    simp [opensTag]
  | cons c cs ih =>
    obtain ⟨first, others, hcut⟩ :=
      List.exists_cons_of_ne_nil (cutTags_ne_nil false (braceDepth depth c) c cs)
    obtain ⟨hfirst, hothers⟩ := ih hcut
    have hflat := flatten_cutTags false (braceDepth depth c) c cs
    rw [hcut, List.flatten_cons] at hflat
    rw [cutTags_cons hcut] at h
    split at h
    · rename_i hopen
      obtain ⟨rfl, rfl⟩ := List.cons.inj h
      refine ⟨rfl, ?_⟩
      intro piece hpiece
      rcases List.mem_cons.1 hpiece with rfl | hpiece
      · -- The tag opens outside braces, where a line of its own starts as well.
        simp only [Bool.and_eq_true, decide_eq_true_eq] at hopen
        obtain ⟨⟨⟨⟨rfl, rfl⟩, -⟩, -⟩, -⟩ := hopen
        simpa [opensTag, braceDepth] using hfirst
      · exact hothers piece hpiece
    · rename_i hopen
      obtain ⟨rfl, rfl⟩ := List.cons.inj h
      refine ⟨?_, hothers⟩
      rw [opensTag, Bool.or_eq_false_iff]
      refine ⟨?_, hfirst⟩
      -- The next character decides, and it is the same in the piece and in the line.
      cases first with
      | nil => simp [startsAlphabetic]
      | cons d first =>
        subst hflat
        simpa [startsAlphabetic] using hopen

/-! ## The pieces of a line -/

theorem length_trimPieces (ls : List (List Char)) : (trimPieces ls).length = ls.length := by
  fun_induction trimPieces ls <;> simp_all

/-- A line is left as it is exactly when no tag opens in it. -/
theorem splitInlineTags_eq_singleton_iff :
    splitInlineTags cs = [cs] ↔ opensTag true 0 ' ' cs = false := by
  rw [← cutTags_eq_singleton_iff, splitInlineTags]
  constructor
  · intro h
    have hlen := congrArg List.length h
    rw [length_trimPieces, List.length_singleton, List.length_eq_one_iff] at hlen
    obtain ⟨piece, hpiece⟩ := hlen
    rw [hpiece]
    rwa [hpiece] at h
  · intro h
    rw [h]
    rfl

/-- Each piece is a beginning of what was cut out. -/
theorem exists_of_mem_trimPieces (h : w ∈ trimPieces ls) : ∃ piece ∈ ls, w <+: piece := by
  fun_induction trimPieces ls with
  | case1 => simp at h
  | case2 last => exact ⟨last, by simp, (List.mem_singleton.1 h) ▸ List.prefix_rfl⟩
  | case3 piece next pieces ih =>
    rcases List.mem_cons.1 h with rfl | h
    · exact ⟨piece, by simp, Text.trimEnd_prefix piece⟩
    · obtain ⟨piece', hmem, hpre⟩ := ih h
      exact ⟨piece', List.mem_cons_of_mem _ hmem, hpre⟩

/-- The pieces of a line without blanks at its end have none there either. -/
theorem trimEnd_of_mem_trimPieces (hlast : ∀ l ∈ ls.getLast?, trimEnd l = l) (h : w ∈ trimPieces ls) :
    trimEnd w = w := by
  fun_induction trimPieces ls with
  | case1 => simp at h
  | case2 last =>
    rw [List.mem_singleton.1 h]
    exact hlast last rfl
  | case3 piece next pieces ih =>
    rcases List.mem_cons.1 h with rfl | h
    · exact Text.trimEnd_trimEnd piece
    · exact ih (by simpa using hlast) h

/-- The pieces of a line are parts of the line, without tags in their middle or blanks at their
end. -/
theorem splitInlineTags_spec (hline : trimEnd cs = cs) (h : w ∈ splitInlineTags cs) :
    w <:+: cs ∧ splitInlineTags w = [w] ∧ trimEnd w = w := by
  have hflat := flatten_cutTags true 0 ' ' cs
  refine ⟨?_, ?_, ?_⟩
  · obtain ⟨piece, hmem, hpre⟩ := exists_of_mem_trimPieces h
    rw [← hflat]
    exact hpre.isInfix.trans (List.infix_of_mem_flatten hmem)
  · obtain ⟨first, others, hcut⟩ := List.exists_cons_of_ne_nil (cutTags_ne_nil true 0 ' ' cs)
    obtain ⟨hfirst, hothers⟩ := opensTag_of_cutTags hcut
    obtain ⟨piece, hmem, hpre⟩ := exists_of_mem_trimPieces h
    rw [splitInlineTags_eq_singleton_iff]
    refine opensTag_of_prefix hpre ?_
    rw [hcut, List.mem_cons] at hmem
    rcases hmem with rfl | hmem
    · exact hfirst
    · exact hothers piece hmem
  · refine trimEnd_of_mem_trimPieces ?_ h
    intro last hlast
    obtain ⟨front, hfront⟩ := List.getLast?_eq_some_iff.1 hlast
    have hsuffix : last <:+ cs := by
      rw [← hflat, hfront, List.flatten_append, List.flatten_singleton]
      exact List.suffix_append _ _
    exact Text.trimEnd_eq_self_of_suffix hsuffix hline

/-! ## Blanks that become a single space -/

/-- Whether a text starts with a tag that would open after a blank. -/
def startsTag : List Char → Bool
  | '@' :: cs => startsAlphabetic cs
  | _ => false

theorem startsAlphabetic_blank (h : isBlank c = true) : startsAlphabetic (c :: cs) = false := by
  simp [startsAlphabetic, Text.isAlphabetic_of_isBlank h]

/-- Blanks open nothing; after them only matters that there are some. -/
theorem opensTag_blanks_append (hw : ∀ c ∈ w, isBlank c = true) (hne : w ≠ []) :
    opensTag start depth previous (w ++ cs) = opensTag false depth ' ' cs := by
  induction w generalizing start previous with
  | nil => exact absurd rfl hne
  | cons c w ih =>
    have hc : isBlank c = true := hw c (by simp)
    have hat : c ≠ '@' := by rintro rfl; exact absurd hc (by decide)
    have hopen : c ≠ '\x7b' := by rintro rfl; exact absurd hc (by decide)
    have hclose : c ≠ '\x7d' := by rintro rfl; exact absurd hc (by decide)
    have hdepth : braceDepth depth c = depth := by rw [braceDepth, if_neg hopen, if_neg hclose]
    rw [List.cons_append, opensTag, hdepth]
    simp only [hat, decide_false, Bool.false_and, Bool.false_or]
    by_cases hnil : w = []
    · subst hnil
      cases cs with
      | nil => rfl
      | cons d cs =>
        have hspace : isBlank ' ' = true := by decide
        rw [List.nil_append, opensTag, opensTag, hc, hspace]
    · exact ih (fun d hd => hw d (by simp [hd])) hnil

theorem opensTag_space (start : Bool) (depth : Nat) (previous : Char) (cs : List Char) :
    opensTag start depth previous (' ' :: cs) = opensTag false depth ' ' cs :=
  opensTag_blanks_append (w := [' ']) (List.forall_mem_singleton.2 (by decide)) (by simp)

/-- What stands before a text matters only when the text starts with a tag. -/
theorem opensTag_of_not_startsTag (h : startsTag cs = false) (p q : Char) :
    opensTag start depth p cs = opensTag start depth q cs := by
  cases cs with
  | nil => rfl
  | cons c cs =>
    rw [opensTag, opensTag]
    by_cases hc : c = '@'
    · subst hc
      have : startsAlphabetic cs = false := h
      simp [this]
    · simp [hc]

/-- A tag opens in the second text at most where one opens in the first, whatever stands before
both. -/
structure Tames (x y : List Char) : Prop where
  head : startsAlphabetic y = true → startsAlphabetic x = true
  opens : ∀ depth previous, opensTag false depth previous x = false →
    opensTag false depth previous y = false

namespace Tames

theorem nil (x : List Char) : Tames x [] :=
  ⟨fun h => by simp [startsAlphabetic] at h, fun _ _ _ => rfl⟩

theorem of_prefix (h : y <+: x) : Tames x y where
  head hy := by
    obtain ⟨tail, rfl⟩ := h
    cases y with
    | nil => simp [startsAlphabetic] at hy
    | cons c y => exact hy
  opens _ _ hx := opensTag_of_prefix h hx

theorem cons (h : Tames x y) (c : Char) : Tames (c :: x) (c :: y) where
  head hy := hy
  opens depth previous hx := by
    rw [opensTag, Bool.or_eq_false_iff] at hx ⊢
    refine ⟨?_, h.opens _ _ hx.2⟩
    cases hy : startsAlphabetic y with
    | false => simp
    | true =>
      rw [h.head hy] at hx
      exact hx.1

theorem append_left (h : Tames x y) (front : List Char) : Tames (front ++ x) (front ++ y) := by
  induction front with
  | nil => exact h
  | cons c front ih => exact ih.cons c

/-- A run of blanks may become a single space. -/
theorem blanks (h : Tames x y) (hw : ∀ c ∈ w, isBlank c = true) (hne : w ≠ []) :
    Tames (w ++ x) (' ' :: y) where
  head hy := by
    rw [startsAlphabetic_blank (by decide)] at hy
    exact absurd hy (by simp)
  opens depth previous hx := by
    rw [opensTag_blanks_append hw hne] at hx
    rw [opensTag_space]
    exact h.opens _ _ hx

/-- A space may be put between a closing brace and what follows it unless that is a tag. -/
theorem brace_space (h : Tames x y) (hy : startsTag y = false) :
    Tames ('\x7d' :: x) ('\x7d' :: ' ' :: y) where
  head hy := hy
  opens depth previous hx := by
    simp [opensTag, braceDepth] at hx ⊢
    rw [opensTag_of_not_startsTag hy ' ' '\x7d']
    exact h.opens _ _ hx

end Tames

end DocBlock.Comment
