import DocBlock.Proofs.Comment.Canonical

/-! # The block of a canonical comment

A block is a list of lines behind margins. `render_eq_block` says so of the block that a canonical
comment is written as, `contentLines_blockOf` takes the same lines out of a block, and `ofLines_written`
puts the comment together again. -/

namespace DocBlock.Comment

open DocBlock.Text (isBlank trim trimEnd trimStart)

variable {c : Comment} {line : List Char} {ls : List (List Char)}

/-! ## Lines behind margins -/

/-- A line behind its margin. -/
def gutter (line : List Char) : List Char :=
  if line.isEmpty then [' ', '*'] else ' ' :: '*' :: ' ' :: line

theorem continuation_eq (h : trimEnd line = line) : continuation line = '\n' :: gutter line := by
  rw [continuation, h, gutter]
  split <;> rfl

theorem newline_not_mem_gutter (h : '\n' ∉ line) : '\n' ∉ gutter line := by
  rw [gutter]
  split <;> simp [h]

theorem gutter_ne_nil (line : List Char) : gutter line ≠ [] := by
  rw [gutter]
  split <;> simp

theorem trimEnd_gutter (h : trimEnd line = line) : trimEnd (gutter line) = gutter line := by
  rw [gutter]
  split
  · decide
  · rename_i hne
    have hself : trimEnd line ≠ [] := by rw [h]; simpa using hne
    have happend := Text.trimEnd_append_of_ne_nil (a := [' ', '*', ' ']) hself
    rw [h] at happend
    exact happend

theorem gutter_unclosed (h : ¬ blockEnd <:+: line) : ¬ blockEnd <:+: gutter line := by
  rw [gutter]
  split
  · decide
  · exact not_blockEnd_append (a := [' ', '*']) (by decide) (by decide) h

/-- The margin of a line is taken off again. -/
theorem dropMargin_gutter (h : trimEnd line = line) : dropMargin (gutter line) = line := by
  rw [gutter]
  split
  · rename_i hempty
    rw [List.isEmpty_iff.1 hempty]
    decide
  · rw [dropMargin, Text.trimStart_cons_of_blank (by decide), Text.trimStart_cons_of_solid (by decide)]
    exact h

/-! ## The content of a block -/

/-- The content of the block that holds some lines. -/
def blockOf (ls : List (List Char)) : List Char :=
  Text.join ['\n'] ([] :: ls.map gutter ++ [[' ']])

theorem isAllBlank_blockOf (hne : ls ≠ []) : Text.isAllBlank (blockOf ls) = false := by
  obtain ⟨line, rest, rfl⟩ := List.exists_cons_of_ne_nil hne
  rw [← Bool.not_eq_true, Text.isAllBlank_iff]
  intro hall
  have hin : gutter line <:+: blockOf (line :: rest) :=
    Text.infix_join_of_mem _ (by simp)
  have hstar : '*' ∈ gutter line := by
    rw [gutter]
    split <;> simp
  exact absurd (hall '*' (hin.subset hstar)) (by decide)

/-- The content of a block is what stands before the first end of a block in it. -/
theorem blockContent?_block (hne : ls ≠ []) (h : ∀ line ∈ ls, Legible line) :
    blockContent? ("/**".toList ++ blockOf ls ++ blockEnd) = some (blockOf ls) := by
  have hopen : Text.cutAt? "/**".toList ("/**".toList ++ (blockOf ls ++ blockEnd)) =
      some ([], blockOf ls ++ blockEnd) := by
    have hnot : ¬ "/**".toList <:+: [] ++ "/**".toList.dropLast := by decide
    exact Text.cutAt?_append (by decide) hnot _
  have hclose : Text.cutAt? blockEnd (blockOf ls ++ blockEnd ++ []) = some (blockOf ls, []) := by
    refine Text.cutAt?_append (by decide) ?_ []
    -- The star of the closing mark makes the last line of the content ` *`.
    have hstar : blockOf ls ++ blockEnd.dropLast =
        Text.join ['\n'] ([] :: ls.map gutter ++ [[' ', '*']]) := by
      rw [blockOf, Text.join_concat_of_ne_nil _ _ (by simp), Text.join_concat_of_ne_nil _ _ (by simp),
        List.append_assoc _ [' ']]
      rfl
    rw [hstar]
    intro hin
    obtain ⟨l, hl, hin⟩ := Text.exists_infix_of_infix_join (by decide) (by simp) hin
    simp only [List.cons_append, List.mem_cons, List.mem_append, List.mem_map, List.not_mem_nil,
      or_false] at hl
    rcases hl with rfl | ⟨line, hline, rfl⟩ | rfl
    · exact absurd hin (by decide)
    · exact gutter_unclosed (h line hline).unclosed hin
    · exact absurd hin (by decide)
  rw [List.append_nil] at hclose
  have hclose' : Text.cutAt? "*/".toList (blockOf ls ++ blockEnd) = some (blockOf ls, []) := hclose
  rw [List.append_assoc]
  simp only [blockContent?, hopen, hclose', Option.bind_eq_bind, Option.bind_some,
    isAllBlank_blockOf hne]
  rfl

/-- Reading takes the lines of a block out of it, with an empty one at either end. -/
theorem contentLines_blockOf (h : ∀ line ∈ ls, Legible line) :
    contentLines (blockOf ls) = [] :: ls ++ [[]] := by
  have hsplit : Text.splitOn '\n' (blockOf ls) = [] :: ls.map gutter ++ [[' ']] := by
    refine Text.splitOn_join ?_ (by simp)
    intro l hl
    simp only [List.cons_append, List.mem_cons, List.mem_append, List.mem_map, List.not_mem_nil,
      or_false] at hl
    rcases hl with rfl | ⟨line, hline, rfl⟩ | rfl
    · simp
    · exact newline_not_mem_gutter (h line hline).oneLine
    · decide
  have hreturn : (ls.map gutter).map Text.dropReturn = ls.map gutter := by
    rw [List.map_map]
    refine List.map_congr_left ?_
    intro line hline
    exact Text.dropReturn_eq_self (trimEnd_gutter (h line hline).trimmed)
  have hlines : Text.lines (blockOf ls) = [] :: ls.map gutter ++ [[' ']] := by
    rw [Text.lines, hsplit, Text.linesOfPieces_concat, List.map_cons, hreturn]
    rfl
  -- Each line loses its gutter, and none of them is cut.
  have hmiddle : (ls.map gutter).flatMap (fun line => splitInlineTags (dropMargin line)) = ls := by
    rw [List.flatMap_map]
    have hone : ∀ line ∈ ls, splitInlineTags (dropMargin (gutter line)) = [line] := by
      intro line hline
      rw [dropMargin_gutter (h line hline).trimmed, (h line hline).uncut]
    rw [List.flatMap_congr hone, List.flatMap_singleton']
  rw [contentLines, hlines, List.cons_append, List.flatMap_cons, List.flatMap_append, hmiddle]
  rfl

/-! ## Canonical comments -/

/-- The lines of the description. -/
def prose (c : Comment) : List (List Char) :=
  c.description.elim [] fun d => Text.splitOn '\n' d.toList

/-- A comment that is written and read back as it is. -/
structure Canonical (c : Comment) : Prop where
  description_ne : ∀ d ∈ c.description, d.toList ≠ []
  description_trimmed : ∀ d ∈ c.description, trim d.toList = d.toList
  prose_legible : ∀ line ∈ c.prose, Legible line
  prose_plain : ∀ line ∈ c.prose, tagHeader? line = none
  tags : ∀ tag ∈ c.tags, tag.Canonical

/-- The lines that a tag is written as. -/
def tagLines (tag : Tag) : List (List Char) :=
  ('@' :: tag.header) :: tag.moreLines

/-- The lines that a comment is written as. -/
def written (c : Comment) : List (List Char) :=
  c.prose ++ c.tags.flatMap tagLines

theorem written_ne_nil (hne : c.isEmpty = false) : c.written ≠ [] := by
  intro hnil
  obtain ⟨hprose, htags⟩ := List.append_eq_nil_iff.1 hnil
  have htags' : c.tags = [] := by
    cases hc : c.tags with
    | nil => rfl
    | cons tag tags =>
      rw [hc, List.flatMap_cons, tagLines, List.cons_append] at htags
      exact absurd htags (by simp)
  have hdesc : c.description = none := by
    cases hc : c.description with
    | none => rfl
    | some d =>
      rw [prose, hc] at hprose
      exact absurd hprose (Text.splitOn_ne_nil _ _)
  simp [isEmpty, htags', hdesc] at hne

namespace Canonical

theorem written_legible (h : c.Canonical) : ∀ line ∈ c.written, Legible line := by
  intro line hline
  rcases List.mem_append.1 hline with hline | hline
  · exact h.prose_legible line hline
  · obtain ⟨tag, htag, hline⟩ := List.mem_flatMap.1 hline
    rcases List.mem_cons.1 hline with rfl | hline
    · exact (h.tags tag htag).head_legible
    · exact (h.tags tag htag).more_legible line hline

/-- A canonical comment without anything to write is the empty one. -/
theorem eq_empty (h : c.Canonical) (hempty : c.isEmpty = true) : c = empty := by
  obtain ⟨description, tags⟩ := c
  simp only [isEmpty, Bool.and_eq_true, List.isEmpty_iff] at hempty
  obtain ⟨hblank, rfl⟩ := hempty
  cases description with
  | none => rfl
  | some d =>
    have htrim := h.description_trimmed d rfl
    have hnil : trim d.toList = [] := by
      rw [Text.trim_eq_nil_iff, ← Text.isAllBlank_iff]
      exact hblank
    rw [hnil] at htrim
    exact absurd htrim.symm (h.description_ne d rfl)

/-! ## Writing -/

theorem lines_description (h : c.Canonical) :
    (c.description.elim [] fun d => (Text.lines (trim d.toList)).flatMap continuation) =
      c.prose.flatMap fun line => '\n' :: gutter line := by
  cases hd : c.description with
  | none =>
    rw [prose, hd]
    rfl
  | some d =>
    have hprose : c.prose = Text.splitOn '\n' d.toList := by
      rw [prose, hd]
      rfl
    have htrim : trimEnd d.toList = d.toList := by
      rw [← h.description_trimmed d hd]
      exact Text.trimEnd_trim _
    have hlines : Text.lines d.toList = Text.splitOn '\n' d.toList := by
      refine Text.lines_eq_splitOn ?_ (Text.getLast?_splitOn_ne (h.description_ne d hd) htrim)
      intro line hline
      exact (h.prose_legible line (hprose ▸ hline)).trimmed
    rw [Option.elim_some, h.description_trimmed d hd, hlines, ← hprose]
    refine List.flatMap_congr ?_
    intro line hline
    exact continuation_eq (h.prose_legible line hline).trimmed

theorem render_tag (h : tag.Canonical) :
    '\n' :: tag.render = (tagLines tag).flatMap fun line => '\n' :: gutter line := by
  have hmore : tag.moreLines.flatMap continuation =
      tag.moreLines.flatMap fun line => '\n' :: gutter line := by
    refine List.flatMap_congr ?_
    intro line hline
    exact continuation_eq (h.more_legible line hline).trimmed
  rw [h.render_eq, hmore, tagLines, List.flatMap_cons, gutter]
  rfl

/-- The block of a canonical comment holds its written lines. -/
theorem render_eq_block (h : c.Canonical) (hne : c.isEmpty = false) :
    c.render = "/**".toList ++ blockOf c.written ++ blockEnd := by
  have htags : c.tags.flatMap (fun tag => '\n' :: tag.render) =
      (c.tags.flatMap tagLines).flatMap fun line => '\n' :: gutter line := by
    rw [List.flatMap_assoc]
    refine List.flatMap_congr ?_
    intro tag htag
    exact render_tag (h.tags tag htag)
  have hblock : blockOf c.written =
      (c.written.flatMap fun line => '\n' :: gutter line) ++ ['\n', ' '] := by
    rw [blockOf, List.cons_append, Text.join_cons_eq_flatMap, List.flatMap_append, List.flatMap_map]
    rfl
  rw [render, hne, h.lines_description, htags, hblock, written, List.flatMap_append]
  simp [blockEnd]

end Canonical

/-! ## Reading -/

/-- Lines that open no tag belong to what stands before them. -/
theorem sections_append (h : ∀ line ∈ ls, tagHeader? line = none) (rest : List (List Char)) :
    sections (ls ++ rest) = (ls ++ (sections rest).1, (sections rest).2) := by
  induction ls with
  | nil => rfl
  | cons line ls ih =>
    have htail := ih fun l hl => h l (List.mem_cons_of_mem line hl)
    rw [List.cons_append, sections, htail, h line List.mem_cons_self]
    rfl

/-- Canonical tags are read back from their lines; nothing but empty lines is left over. -/
theorem sections_tags {tags : List Tag} (h : ∀ tag ∈ tags, tag.Canonical) :
    (∀ line ∈ (sections (tags.flatMap tagLines ++ [[]])).1, line = []) ∧
      (sections (tags.flatMap tagLines ++ [[]])).2.map (fun (header, others) => readTag header others) =
        tags := by
  induction tags with
  | nil => decide
  | cons tag tags ih =>
    obtain ⟨hpad, hread⟩ := ih fun t ht => h t (List.mem_cons_of_mem tag ht)
    have htag : tag.Canonical := h tag List.mem_cons_self
    have hsections : sections ((tag :: tags).flatMap tagLines ++ [[]]) =
        ([], (tag.header, tag.moreLines ++ (sections (tags.flatMap tagLines ++ [[]])).1) ::
          (sections (tags.flatMap tagLines ++ [[]])).2) := by
      rw [List.flatMap_cons, tagLines, List.append_assoc, List.cons_append, sections,
        sections_append htag.more_plain, htag.tagHeader?_header]
    rw [hsections]
    refine ⟨by simp, ?_⟩
    rw [List.map_cons, hread]
    show readTag tag.header _ :: tags = tag :: tags
    rw [htag.readTag_header hpad]

/-- The description is read back from its lines between empty ones. -/
theorem trim_join_prose (h : c.Canonical) {pad : List (List Char)} (hpad : ∀ line ∈ pad, line = []) :
    trim (Text.join ['\n'] ([] :: c.prose ++ pad)) = c.description.elim [] String.toList := by
  have htrim : ∀ line ∈ [] :: c.prose ++ pad, trimEnd line = line := by
    intro line hline
    simp only [List.cons_append, List.mem_cons, List.mem_append] at hline
    rcases hline with rfl | hline | hline
    · rfl
    · exact (h.prose_legible line hline).trimmed
    · rw [hpad line hline]
      rfl
  rw [Text.trim_eq_trimStart_trimEnd, Text.trimEnd_join htrim, Text.dropEmptyEnd_append_empty hpad]
  cases hd : c.description with
  | none =>
    rw [prose, hd]
    rfl
  | some d =>
    have hprose : c.prose = Text.splitOn '\n' d.toList := by
      rw [prose, hd]
      rfl
    have hd_trim := h.description_trimmed d hd
    have hd_end : trimEnd d.toList = d.toList := by
      rw [← hd_trim]
      exact Text.trimEnd_trim _
    have hd_start : trimStart d.toList = d.toList := by
      rw [← hd_trim]
      exact Text.trimStart_trim _
    -- The description is trimmed, so its last line stops the padding from being joined.
    have hlast : ([] :: c.prose).getLast? ≠ some [] := by
      rw [hprose, List.getLast?_cons]
      have := Text.getLast?_splitOn_ne (h.description_ne d hd) hd_end
      cases hl : (Text.splitOn '\n' d.toList).getLast? with
      | none => exact absurd (List.getLast?_eq_none_iff.1 hl) (Text.splitOn_ne_nil _ _)
      | some l => simpa [hl] using this
    have hprose_ne : c.prose ≠ [] := by
      rw [hprose]
      exact Text.splitOn_ne_nil _ _
    rw [Text.dropEmptyEnd_eq_self hlast, Text.join_cons_of_ne_nil _ _ hprose_ne, hprose,
      Text.join_splitOn, List.append_assoc, List.nil_append,
      Text.trimStart_blanks_append (List.forall_mem_singleton.2 (by decide)), hd_start, Option.elim_some]

/-- A canonical comment is put together again from its lines. -/
theorem ofLines_written (h : c.Canonical) : ofLines ([] :: c.written ++ [[]]) = c := by
  obtain ⟨hpad, hread⟩ := sections_tags h.tags
  have hplain : ∀ line ∈ [] :: c.prose, tagHeader? line = none := by
    intro line hline
    rcases List.mem_cons.1 hline with rfl | hline
    · rfl
    · exact h.prose_plain line hline
  have hsections : sections ([] :: c.written ++ [[]]) =
      ([] :: c.prose ++ (sections (c.tags.flatMap tagLines ++ [[]])).1,
        (sections (c.tags.flatMap tagLines ++ [[]])).2) := by
    rw [written, List.cons_append, List.append_assoc, ← List.cons_append, sections_append hplain]
  have hdescription : (if (c.description.elim [] String.toList).isEmpty then none
      else some (String.ofList (c.description.elim [] String.toList))) = c.description := by
    cases hd : c.description with
    | none => rfl
    | some d => simp [h.description_ne d hd]
  simp only [ofLines, hsections, trim_join_prose h hpad, hread, hdescription]

/-- A canonical comment is read back from its block as it was. -/
theorem read_render (h : c.Canonical) : read c.render = c := by
  cases hempty : c.isEmpty with
  | true =>
    rw [h.eq_empty hempty]
    decide
  | false =>
    rw [h.render_eq_block hempty, read,
      blockContent?_block (written_ne_nil hempty) h.written_legible]
    show ofLines (contentLines (blockOf c.written)) = c
    rw [contentLines_blockOf h.written_legible, ofLines_written h]

end DocBlock.Comment
