import DocBlock.Proofs.Comment.Block

/-! # Reading settles at once

Whatever a text holds, the comment read from it is canonical: the lines of a block are legible, the
lines of a description stay so when the text is trimmed, and the line of a tag is written with single
spaces where blanks were read. One place is an exception. Behind a type a space is written where
perhaps none was read, and there a name could become a tag. `canonical_read` excludes this place, and
`ofString_text_ofString` follows from it. -/

namespace DocBlock.Comment

open DocBlock.Text (isBlank trim trimEnd trimStart)

variable {line content : List Char} {ls : List (List Char)}

/-! ## The lines of a block -/

theorem dropMargin_isInfix (line : List Char) : dropMargin line <:+: line := by
  rw [dropMargin]
  refine (Text.trimEnd_prefix _).isInfix.trans ?_
  refine List.IsInfix.trans ?_ (Text.trimStart_suffix line).isInfix
  split
  · rename_i rest heq
    rw [heq]
    exact (List.suffix_append ['*', ' '] rest).isInfix
  · rename_i rest _ heq
    rw [heq]
    exact (List.suffix_append ['*'] rest).isInfix
  · exact List.infix_rfl

/-- The content of a block goes up to the first end of a block. -/
theorem blockContent?_unclosed {raw : List Char} (h : blockContent? raw = some content) :
    ¬ blockEnd <:+: content := by
  rw [blockContent?, Option.bind_eq_bind, Option.bind_eq_some_iff] at h
  obtain ⟨⟨before, body⟩, -, h⟩ := h
  dsimp only at h
  rw [Option.bind_eq_some_iff] at h
  obtain ⟨⟨content', behind⟩, hcut, h⟩ := h
  dsimp only at h
  split at h
  · exact absurd h (by simp)
  · obtain rfl := Option.some.inj h
    exact (Text.not_infix_of_cutAt? (by decide) hcut).1

/-- The lines of a block are legible. -/
theorem legible_of_mem_contentLines (hcontent : ¬ blockEnd <:+: content)
    (h : line ∈ contentLines content) : Legible line := by
  obtain ⟨l, hl, hline⟩ := List.mem_flatMap.1 h
  have htrim : trimEnd (dropMargin l) = dropMargin l := Text.trimEnd_trimEnd _
  obtain ⟨hpart, huncut, htrimmed⟩ := splitInlineTags_spec htrim hline
  have hin : line <:+: l := hpart.trans (dropMargin_isInfix l)
  refine ⟨?_, htrimmed, huncut, ?_⟩
  · intro hmem
    exact Text.newline_not_mem_of_mem_lines hl (hin.subset hmem)
  · intro hclosed
    exact hcontent (hclosed.trans (hin.trans (Text.infix_of_mem_lines hl)))

/-- What opens no tag in the middle of a line opens none at its start. -/
theorem opensTag_true_of_false {depth : Nat} {previous : Char} {cs : List Char}
    (h : opensTag false depth previous cs = false) : opensTag true depth previous cs = false := by
  cases cs with
  | nil => rfl
  | cons c cs =>
    rw [opensTag, Bool.or_eq_false_iff] at h
    rw [opensTag, h.2]
    simp

/-- A legible line stays legible without the blanks at its start. -/
theorem Legible.trimStart (h : Legible line) : Legible (trimStart line) := by
  have hsuffix := Text.trimStart_suffix line
  refine ⟨?_, Text.trimEnd_eq_self_of_suffix hsuffix h.trimmed, ?_, ?_⟩
  · intro hmem
    exact h.oneLine (hsuffix.subset hmem)
  · obtain ⟨w, hw, hline⟩ := Text.exists_blanks_append_trimStart line
    have huncut := splitInlineTags_eq_singleton_iff.1 h.uncut
    rw [splitInlineTags_eq_singleton_iff]
    by_cases hnil : w = []
    · rw [hnil, List.nil_append] at hline
      rw [← hline]
      exact huncut
    · rw [hline, opensTag_blanks_append hw hnil] at huncut
      exact opensTag_true_of_false huncut
  · intro hclosed
    exact h.unclosed (hclosed.trans hsuffix.isInfix)

theorem tagHeader?_trimStart (line : List Char) :
    tagHeader? (Text.trimStart line) = tagHeader? line := by
  rw [tagHeader?, Text.trimStart_trimStart, tagHeader?]

/-- A line opens a tag with an `@` and the first character of a kind. -/
theorem tagHeader?_spec {header : List Char} (h : tagHeader? line = some header) :
    Text.trimStart line = '@' :: header ∧ ∃ c rest, header = c :: rest ∧ isBlank c = false := by
  rw [tagHeader?] at h
  split at h
  · rename_i rest heq
    split at h
    · rename_i hsolid
      obtain rfl := Option.some.inj h
      refine ⟨heq, ?_⟩
      cases rest with
      | nil => simp at hsolid
      | cons c rest => exact ⟨c, rest, rfl, by simpa using hsolid⟩
    · exact absurd h (by simp)
  · exact absurd h (by simp)

/-- The lines before the first tag, and behind each tag, are lines that open none. -/
theorem sections_spec (ls : List (List Char)) :
    (∀ line ∈ (sections ls).1, line ∈ ls ∧ tagHeader? line = none) ∧
      ∀ header others, (header, others) ∈ (sections ls).2 →
        (∃ line ∈ ls, tagHeader? line = some header) ∧
          ∀ line ∈ others, line ∈ ls ∧ tagHeader? line = none := by
  induction ls with
  | nil => simp [sections]
  | cons line ls ih =>
    obtain ⟨hprose, htags⟩ := ih
    have hprose' : ∀ l ∈ (sections ls).1, l ∈ line :: ls ∧ tagHeader? l = none := by
      intro l hl
      exact ⟨List.mem_cons_of_mem line (hprose l hl).1, (hprose l hl).2⟩
    have htags' : ∀ header others, (header, others) ∈ (sections ls).2 →
        (∃ l ∈ line :: ls, tagHeader? l = some header) ∧
          ∀ l ∈ others, l ∈ line :: ls ∧ tagHeader? l = none := by
      intro header others hmem
      obtain ⟨⟨l, hl, hheader⟩, hothers⟩ := htags header others hmem
      refine ⟨⟨l, List.mem_cons_of_mem line hl, hheader⟩, ?_⟩
      intro l' hl'
      exact ⟨List.mem_cons_of_mem line (hothers l' hl').1, (hothers l' hl').2⟩
    -- A line without a header joins the prose in front of the sections, any other one opens a section
    -- that takes this prose over.
    rw [sections]
    cases hline : tagHeader? line with
    | none =>
      refine ⟨?_, htags'⟩
      intro l hl
      rcases List.mem_cons.1 hl with rfl | hl
      · exact ⟨List.mem_cons_self, hline⟩
      · exact hprose' l hl
    | some opened =>
      refine ⟨fun l hl => absurd hl List.not_mem_nil, ?_⟩
      intro header others hmem
      rcases List.mem_cons.1 hmem with heq | hmem
      · obtain ⟨rfl, rfl⟩ := Prod.mk.inj heq
        exact ⟨⟨line, List.mem_cons_self, hline⟩, hprose'⟩
      · exact htags' header others hmem

/-- What ends a word starts with a run of blanks. -/
theorem exists_blanks_of_endsWord {cs : List Char} (h : endsWord cs) (hne : cs ≠ []) :
    ∃ w, (∀ c ∈ w, isBlank c = true) ∧ w ≠ [] ∧ cs = w ++ Text.trimStart cs := by
  obtain ⟨w, hw, hsplit⟩ := Text.exists_blanks_append_trimStart cs
  refine ⟨w, hw, ?_, hsplit⟩
  rintro rfl
  rw [List.nil_append] at hsplit
  obtain ⟨c, rest, hcons⟩ := List.exists_cons_of_ne_nil hne
  have hblank : isBlank c = true := h c (by rw [hcons]; rfl)
  have hsolid : isBlank c = false :=
    Text.isBlank_head_trimStart (by rw [← hsplit, hcons]; rfl)
  rw [hsolid] at hblank
  exact absurd hblank (by simp)

theorem filter_isBrace_trim (cs : List Char) : (trim cs).filter isBrace = cs.filter isBrace := by
  have hblanks : ∀ w : List Char, (∀ c ∈ w, isBlank c = true) → w.filter isBrace = [] := by
    intro w hw
    rw [List.filter_eq_nil_iff]
    intro c hc hbrace
    have hblank := hw c hc
    simp only [isBrace, Bool.or_eq_true, decide_eq_true_eq] at hbrace
    rcases hbrace with rfl | rfl
    · exact absurd hblank (by decide)
    · exact absurd hblank (by decide)
  obtain ⟨w, hw, hstart⟩ := Text.exists_blanks_append_trimStart cs
  obtain ⟨v, hv, hend⟩ := Text.exists_trimEnd_append_blanks (Text.trimStart cs)
  have hsplit : cs = w ++ (trim cs ++ v) := by
    rw [trim, ← hend, ← hstart]
  conv_rhs => rw [hsplit]
  rw [List.filter_append, List.filter_append, hblanks w hw, hblanks v hv, List.nil_append,
    List.append_nil]

/-- Either there is no type and the text is left as it is, or the text starts with the type between
braces. -/
theorem takeType_cases {cs rest : List Char} {type : Option String}
    (h : takeType cs = (type, rest)) :
    (type = none ∧ rest = cs ∧ ∀ inside, cs = '\x7b' :: inside → closeBrace? 0 inside = none) ∨
      ∃ inside behind, type = some (String.ofList inside) ∧
        cs = '\x7b' :: (inside ++ '\x7d' :: behind) ∧ rest = Text.trimStart behind ∧
        ∀ other, closeBrace? 0 (inside ++ '\x7d' :: other) = some (inside, other) := by
  rw [takeType.eq_def] at h
  split at h
  · rename_i opened
    cases hclose : closeBrace? 0 opened with
    | none =>
      rw [hclose] at h
      obtain ⟨rfl, rfl⟩ := Prod.mk.inj h
      refine .inl ⟨rfl, rfl, ?_⟩
      intro inside heq
      rw [← (List.cons.inj heq).2, hclose]
    | some cut =>
      obtain ⟨inside, behind⟩ := cut
      rw [hclose] at h
      obtain ⟨rfl, rfl⟩ := Prod.mk.inj h
      obtain ⟨rfl, hother⟩ := closeBrace?_spec hclose
      exact .inr ⟨inside, behind, rfl, rfl, rfl, hother⟩
  · rename_i hopen
    obtain ⟨rfl, rfl⟩ := Prod.mk.inj h
    exact .inl ⟨rfl, rfl, fun inside heq => absurd heq (hopen inside)⟩

theorem takeType_suffix {cs rest : List Char} {type : Option String}
    (h : takeType cs = (type, rest)) : rest <:+ cs := by
  rcases takeType_cases h with ⟨-, rfl, -⟩ | ⟨inside, behind, -, rfl, rfl, -⟩
  · exact List.suffix_rfl
  · refine (Text.trimStart_suffix behind).trans ?_
    exact ⟨'\x7b' :: (inside ++ ['\x7d']), by simp⟩

/-! ## The description -/

/-- Trimming joined lines leaves lines of the same kind. -/
theorem exists_lines_trim_join (h : ∀ line ∈ ls, Legible line ∧ tagHeader? line = none) :
    ∃ ls', trim (Text.join ['\n'] ls) = Text.join ['\n'] ls' ∧
      ∀ line ∈ ls', Legible line ∧ tagHeader? line = none := by
  have hend : ∀ line ∈ Text.dropEmptyEnd ls, Legible line ∧ tagHeader? line = none := by
    intro line hline
    exact h line ((Text.dropEmptyEnd_prefix ls).subset hline)
  refine ⟨((Text.dropEmptyEnd ls).dropWhile List.isEmpty).modifyHead Text.trimStart, ?_, ?_⟩
  · rw [Text.trim_eq_trimStart_trimEnd, Text.trimEnd_join fun l hl => (h l hl).1.trimmed,
      Text.trimStart_join fun l hl => (hend l hl).1.trimmed]
  · have hstart : ∀ line ∈ (Text.dropEmptyEnd ls).dropWhile List.isEmpty,
        Legible line ∧ tagHeader? line = none := by
      intro line hline
      exact hend line ((List.dropWhile_suffix _).subset hline)
    cases hcons : (Text.dropEmptyEnd ls).dropWhile List.isEmpty with
    | nil => exact fun line hline => absurd hline List.not_mem_nil
    | cons first more =>
      rw [hcons] at hstart
      intro line hline
      rcases List.mem_cons.1 hline with rfl | hline
      · obtain ⟨hlegible, hplain⟩ := hstart first List.mem_cons_self
        exact ⟨hlegible.trimStart, by rw [tagHeader?_trimStart, hplain]⟩
      · exact hstart line (List.mem_cons_of_mem first hline)

/-- The lines of the trimmed text are the lines it was joined from. -/
theorem splitOn_trim_join (h : ∀ line ∈ ls, Legible line ∧ tagHeader? line = none)
    (hne : trim (Text.join ['\n'] ls) ≠ []) :
    ∀ line ∈ Text.splitOn '\n' (trim (Text.join ['\n'] ls)),
      Legible line ∧ tagHeader? line = none := by
  obtain ⟨ls', hjoin, hlines⟩ := exists_lines_trim_join h
  have hls' : ls' ≠ [] := by
    rintro rfl
    exact hne hjoin
  rw [hjoin, Text.splitOn_join (fun l hl => (hlines l hl).1.oneLine) hls']
  exact hlines

end DocBlock.Comment

namespace DocBlock.Tag

open DocBlock.Text (isBlank trim trimEnd trimStart)

variable {tag : Tag} {first : List Char} {others : List (List Char)}

/-! ## The description of a tag -/

/-- What is read behind the name is the first line of the description, and the other lines are among
those behind the tag. -/
theorem prose_of_tagDescription? (hd : tag.description = Comment.tagDescription? first others)
    (hfirst : trim first = first) (honeLine : '\n' ∉ first)
    (hothers : ∀ line ∈ others, Comment.Legible line) :
    tag.firstLine = first ∧ tag.moreLines <+: others ∧
      ∀ d ∈ tag.description, trimEnd d.toList = d.toList ∧ Text.isAllBlank d.toList = false := by
  have hfirstEnd : trimEnd first = first := by
    rw [← hfirst]
    exact Text.trimEnd_trim _
  have htrim : ∀ line ∈ first :: others, trimEnd line = line := by
    intro line hline
    rcases List.mem_cons.1 hline with rfl | hline
    · exact hfirstEnd
    · exact (hothers line hline).trimmed
  rw [Comment.tagDescription?] at hd
  cases hblank : Text.isAllBlank (trimEnd (Text.join ['\n'] (first :: others))) with
  | true =>
    rw [hblank] at hd
    have hnone : tag.description = none := hd
    have hnil : first = [] := by
      rw [Text.isAllBlank_iff, ← Text.trimEnd_eq_nil_iff, Text.trimEnd_trimEnd,
        Text.trimEnd_eq_nil_iff] at hblank
      rw [← hfirst, Text.trim_eq_nil_iff]
      intro c hc
      exact hblank c ((Text.infix_join_of_mem ['\n'] List.mem_cons_self).subset hc)
    rw [firstLine, moreLines, prose_of_none hnone, hnone, hnil]
    exact ⟨rfl, List.nil_prefix, fun d hd => absurd hd (by simp)⟩
  | false =>
    rw [hblank] at hd
    have hsome : tag.description =
        some (String.ofList (trimEnd (Text.join ['\n'] (first :: others)))) := hd
    have hjoin := Text.trimEnd_join htrim
    -- The text is not blank, so that the first line is left.
    have hne : Text.dropEmptyEnd (first :: others) ≠ [] := by
      intro hdrop
      rw [hjoin, hdrop] at hblank
      exact absurd hblank (by decide)
    obtain ⟨more, hcons, hmore⟩ := Text.exists_dropEmptyEnd_cons hne
    have hsplit : Text.splitOn '\n' (trimEnd (Text.join ['\n'] (first :: others))) =
        first :: more := by
      rw [hjoin, hcons]
      refine Text.splitOn_join ?_ (List.cons_ne_nil first more)
      intro l hl
      rcases List.mem_cons.1 hl with rfl | hl
      · exact honeLine
      · exact (hothers l (hmore.subset hl)).oneLine
    have hprose : tag.prose = first :: more := by
      rw [prose_of_some hsome, String.toList_ofList, hsplit]
    rw [firstLine, moreLines, hprose, hsome]
    refine ⟨rfl, hmore, ?_⟩
    intro d hmem
    obtain rfl := Option.some.inj (Option.mem_def.1 hmem)
    rw [String.toList_ofList]
    exact ⟨Text.trimEnd_trimEnd _, hblank⟩

/-! ## The line of a tag -/

/-- How the line of a tag was read: the kind up to `afterKind`, a type up to `behind`, and a name up
to `rest`, which holds the first line of the description. -/
structure ReadFrom (tag : Tag) (header afterKind behind rest : List Char) : Prop where
  header_eq : header = tag.kind.toList ++ afterKind
  kind_ne : tag.kind.toList ≠ []
  kind_solid : ∀ c ∈ tag.kind.toList, isBlank c = false
  kind_ends : Comment.endsWord afterKind
  type_eq : Comment.takeType (trimStart afterKind) = (tag.type, behind)
  behind_eq : behind = tag.name.elim [] String.toList ++ rest
  name_ne : ∀ name ∈ tag.name, name.toList ≠ []
  name_solid : ∀ name ∈ tag.name, ∀ c ∈ name.toList, isBlank c = false
  name_ends : Comment.endsWord rest
  firstLine_eq : tag.firstLine = trim rest

variable {header afterKind behind rest : List Char}

/-- The parts that a tag is read from. -/
theorem exists_takeWord_readTag (header : List Char) (others : List (List Char)) :
    ∃ tag afterKind behind rest, Comment.readTag header others = tag ∧
      Comment.takeWord header = (tag.kind.toList, afterKind) ∧
      Comment.takeType (trimStart afterKind) = (tag.type, behind) ∧
      Comment.takeWord behind = (tag.name.elim [] String.toList, rest) ∧
      (∀ name ∈ tag.name, name.toList ≠ []) ∧
      tag.description = Comment.tagDescription? (trim rest) others := by
  rcases hkind : Comment.takeWord header with ⟨kind, afterKind⟩
  rcases htype : Comment.takeType (trimStart afterKind) with ⟨type, behind⟩
  rcases hname : Comment.takeWord behind with ⟨name, rest⟩
  refine ⟨_, afterKind, behind, rest, rfl, ?_⟩
  simp only [Comment.readTag, hkind, htype, hname]
  refine ⟨by simp, by simp, ?_, ?_, trivial⟩
  · cases name <;> simp
  · intro text htext
    cases name with
    | nil => simp at htext
    | cons c name =>
      obtain rfl : String.ofList (c :: name) = text := by simpa using htext
      simp

theorem exists_readFrom (hline : Comment.Legible ('@' :: header))
    (hsolid : ∃ c cs, header = c :: cs ∧ isBlank c = false)
    (hothers : ∀ line ∈ others, Comment.Legible line) :
    ∃ afterKind behind rest,
      ReadFrom (Comment.readTag header others) header afterKind behind rest ∧
      (Comment.readTag header others).moreLines <+: others ∧
      ∀ d ∈ (Comment.readTag header others).description,
        trimEnd d.toList = d.toList ∧ Text.isAllBlank d.toList = false := by
  obtain ⟨tag, afterKind, behind, rest, hread, hkind, htype, hname, hname_ne, hd⟩ :=
    exists_takeWord_readTag header others
  obtain ⟨hheader, hkind_solid, hkind_ends⟩ := Comment.takeWord_spec hkind
  obtain ⟨hbehind, hname_solid, hname_ends⟩ := Comment.takeWord_spec hname
  have hrest : rest <:+: header := by
    rw [hheader]
    refine List.IsInfix.trans ?_ (List.suffix_append _ afterKind).isInfix
    refine List.IsInfix.trans ?_ (Text.trimStart_suffix afterKind).isInfix
    refine List.IsInfix.trans ?_ (Comment.takeType_suffix htype).isInfix
    rw [hbehind]
    exact (List.suffix_append _ rest).isInfix
  have honeLine : '\n' ∉ trim rest := by
    intro hmem
    have hsub : trim rest <:+: rest :=
      (Text.trimEnd_prefix _).isInfix.trans (Text.trimStart_suffix rest).isInfix
    exact hline.oneLine (List.mem_cons_of_mem '@' (hrest.subset (hsub.subset hmem)))
  obtain ⟨hfirst, hmore, hdescription⟩ :=
    prose_of_tagDescription? hd (Text.trim_trim rest) honeLine hothers
  rw [hread]
  refine ⟨afterKind, behind, rest, ?_, hmore, hdescription⟩
  refine ⟨hheader, ?_, hkind_solid, hkind_ends, htype, hbehind, hname_ne, ?_, hname_ends, hfirst⟩
  · -- The line goes on behind its `@`, so that the kind is not empty.
    intro hnil
    obtain ⟨c, cs, hcons, hc⟩ := hsolid
    rw [hnil, List.nil_append, hcons] at hheader
    have hblank := hkind_ends c (by rw [← hheader]; rfl)
    rw [hc] at hblank
    exact absurd hblank (by simp)
  · intro name hmem c hc
    rw [Option.mem_def.1 hmem] at hname_solid
    exact hname_solid c hc

theorem not_blockEnd_of_infix {cs : List Char} (hline : Comment.Legible ('@' :: header))
    (hcs : cs <:+: header) : ¬ blockEnd <:+: cs := by
  intro hclosed
  exact hline.unclosed (hclosed.trans (hcs.trans (List.suffix_cons '@' header).isInfix))

namespace ReadFrom

variable (h : ReadFrom tag header afterKind behind rest)
include h

/-- What is read behind the kind and the type starts with no blank. -/
theorem behind_solid {c : Char} (hc : behind.head? = some c) : isBlank c = false := by
  rcases Comment.takeType_cases h.type_eq with ⟨-, rfl, -⟩ | ⟨inside, other, -, -, rfl, -⟩
  · exact Text.isBlank_head_trimStart hc
  · exact Text.isBlank_head_trimStart hc

/-- Without a name nothing is left for a description. -/
theorem rest_eq_nil (hname : tag.name = none) : rest = [] := by
  cases hrest : rest with
  | nil => rfl
  | cons c cs =>
    have hbehind := h.behind_eq
    rw [hname, Option.elim_none, List.nil_append, hrest] at hbehind
    have hsolid := h.behind_solid (by rw [hbehind]; rfl)
    have hblank := h.name_ends c (by rw [hrest]; rfl)
    rw [hsolid] at hblank
    exact absurd hblank (by simp)

theorem subject_eq_nil (hbehind : behind = []) : tag.subject = [] := by
  cases hname : tag.name with
  | none => rw [subject, hname, Option.elim_none]
  | some name =>
    have heq := h.behind_eq
    rw [hbehind, hname, Option.elim_some] at heq
    exact absurd (List.append_eq_nil_iff.1 heq.symm).1 (h.name_ne name hname)

/-! ### No tag opens where a blank becomes a space -/

theorem tames_rest :
    Comment.Tames rest (if tag.firstLine.isEmpty then [] else ' ' :: tag.firstLine) := by
  split
  · exact .nil rest
  · rename_i hfirst
    have hne : rest ≠ [] := by
      intro hnil
      rw [h.firstLine_eq, hnil] at hfirst
      exact hfirst rfl
    obtain ⟨w, hw, hw_ne, hsplit⟩ := Comment.exists_blanks_of_endsWord h.name_ends hne
    have hprefix : tag.firstLine <+: trimStart rest := by
      rw [h.firstLine_eq]
      exact Text.trimEnd_prefix _
    rw [hsplit]
    exact (Comment.Tames.of_prefix hprefix).blanks hw hw_ne

theorem tames_behind : Comment.Tames behind tag.subject := by
  rw [h.behind_eq, subject]
  cases hname : tag.name with
  | none => exact .nil _
  | some name => exact h.tames_rest.append_left name.toList

/-- A name that is no tag stays none with the description behind it. -/
theorem startsTag_subject (hname : ∀ name ∈ tag.name, Comment.startsTag name.toList = false) :
    Comment.startsTag tag.subject = false := by
  rw [subject]
  cases hn : tag.name with
  | none => rfl
  | some name =>
    have hstarts := hname name hn
    obtain ⟨c, cs, hcons⟩ := List.exists_cons_of_ne_nil (h.name_ne name hn)
    rw [hcons] at hstarts
    rw [Option.elim_some, hcons, List.cons_append]
    by_cases hc : c = '@'
    · subst hc
      show Comment.startsAlphabetic _ = false
      cases cs with
      | nil =>
        rw [List.nil_append]
        split
        · rfl
        · exact Comment.startsAlphabetic_blank (by decide)
      | cons d cs => exact hstarts
    · rw [Comment.startsTag]
      rintro rest heq
      exact absurd (List.cons.inj heq).1 hc

/-- The written line of a tag opens a tag at most where the line it was read from does. -/
theorem tames_afterKind (hname : tag.type.isSome = true →
      ∀ name ∈ tag.name, Comment.startsTag name.toList = false) :
    Comment.Tames afterKind
      (tag.typeText ++ (if tag.subject.isEmpty then [] else ' ' :: tag.subject)) := by
  rcases Comment.takeType_cases h.type_eq with ⟨htype, hbehind, -⟩ |
    ⟨inside, other, htype, hopen, hbehind, -⟩
  · rw [typeText, htype, Option.elim_none, List.nil_append]
    split
    · exact .nil afterKind
    · rename_i hsubject
      have hne : afterKind ≠ [] := by
        rintro rfl
        rw [h.subject_eq_nil hbehind] at hsubject
        exact hsubject rfl
      obtain ⟨w, hw, hw_ne, hsplit⟩ := Comment.exists_blanks_of_endsWord h.kind_ends hne
      rw [hsplit, ← hbehind]
      exact h.tames_behind.blanks hw hw_ne
  · have hne : afterKind ≠ [] := by
      rintro rfl
      exact absurd hopen (by simp)
    obtain ⟨w, hw, hw_ne, hsplit⟩ := Comment.exists_blanks_of_endsWord h.kind_ends hne
    -- From left to right: the blanks behind the kind, the type in its braces, the blanks behind it.
    rw [hsplit, hopen, typeText, htype, Option.elim_some, String.toList_ofList]
    simp only [List.cons_append, List.append_assoc]
    refine Comment.Tames.blanks ?_ hw hw_ne
    refine Comment.Tames.cons (Comment.Tames.append_left ?_ inside) '\x7b'
    split
    · exact (Comment.Tames.nil other).cons '\x7d'
    · obtain ⟨v, hv, hother⟩ := Text.exists_blanks_append_trimStart other
      rw [hother, ← hbehind]
      by_cases hv_ne : v = []
      · -- Here a space is put where none was read.
        rw [hv_ne, List.nil_append]
        exact h.tames_behind.brace_space (h.startsTag_subject (hname (by rw [htype]; rfl)))
      · exact (h.tames_behind.blanks hv hv_ne).cons '\x7d'

theorem uncut (hline : Comment.Legible ('@' :: header)) (hname : tag.type.isSome = true →
      ∀ name ∈ tag.name, Comment.startsTag name.toList = false) :
    Comment.splitInlineTags ('@' :: tag.header) = ['@' :: tag.header] := by
  have hopens := Comment.splitInlineTags_eq_singleton_iff.1 hline.uncut
  rw [Comment.opensTag, Bool.or_eq_false_iff, h.header_eq] at hopens
  rw [Comment.splitInlineTags_eq_singleton_iff, Comment.opensTag, Bool.or_eq_false_iff]
  refine ⟨by simp, ?_⟩
  exact ((h.tames_afterKind hname).append_left tag.kind.toList).opens _ _ hopens.2

/-! ### What is written is read the same way -/

/-- A brace that is never closed is not closed when blanks become spaces either. -/
theorem type_absent (htype : tag.type = none) :
    Comment.takeType tag.subject = (none, tag.subject) := by
  rcases Comment.takeType_cases h.type_eq with ⟨-, hbehind, hopen⟩ | ⟨inside, other, hsome, -⟩
  · cases hname : tag.name with
    | none =>
      rw [subject, hname]
      rfl
    | some name =>
      obtain ⟨c, cs, hcons⟩ := List.exists_cons_of_ne_nil (h.name_ne name hname)
      have hstart : trimStart afterKind = c :: (cs ++ rest) := by
        rw [← hbehind, h.behind_eq, hname, Option.elim_some, hcons, List.cons_append]
      have hsubject : tag.subject =
          c :: (cs ++ (if tag.firstLine.isEmpty then [] else ' ' :: tag.firstLine)) := by
        rw [subject, hname, Option.elim_some, hcons, List.cons_append]
      rw [hsubject]
      by_cases hc : c = '\x7b'
      · -- The name opens a brace that is never closed. Only braces matter for that, and trimming the
        -- description takes none away.
        subst hc
        have hfilter : rest.filter Comment.isBrace =
            (if tag.firstLine.isEmpty then [] else ' ' :: tag.firstLine).filter Comment.isBrace := by
          rw [← Comment.filter_isBrace_trim rest, ← h.firstLine_eq]
          split
          · rename_i hempty
            rw [List.isEmpty_iff.1 hempty]
          · rfl
        have hnone := hopen _ hstart
        rw [Comment.closeBrace?_eq_none_iff_filter, List.filter_append, hfilter,
          ← List.filter_append, ← Comment.closeBrace?_eq_none_iff_filter] at hnone
        rw [Comment.takeType, hnone]
      · rw [Comment.takeType]
        intro other heq
        exact absurd (List.cons.inj heq).1 hc
  · rw [htype] at hsome
    exact absurd hsome (by simp)

theorem infix_header {cs : List Char} (hcs : cs <:+: behind) : cs <:+: header := by
  rw [h.header_eq]
  refine hcs.trans ?_
  refine (Comment.takeType_suffix h.type_eq).isInfix.trans ?_
  refine (Text.trimStart_suffix afterKind).isInfix.trans ?_
  exact (List.suffix_append _ afterKind).isInfix

theorem type_isInfix {type : String} (htype : tag.type = some type) : type.toList <:+: header := by
  rcases Comment.takeType_cases h.type_eq with ⟨hnone, -⟩ | ⟨inside, other, hsome, hopen, -⟩
  · rw [htype] at hnone
    exact absurd hnone (by simp)
  · rw [htype] at hsome
    rw [Option.some.inj hsome, String.toList_ofList, h.header_eq]
    refine List.IsInfix.trans ?_ (List.suffix_append _ afterKind).isInfix
    refine List.IsInfix.trans ?_ (Text.trimStart_suffix afterKind).isInfix
    rw [hopen]
    exact ⟨['\x7b'], '\x7d' :: other, by simp⟩

theorem type_closed {type : String} (htype : tag.type = some type) (other : List Char) :
    Comment.closeBrace? 0 (type.toList ++ '\x7d' :: other) = some (type.toList, other) := by
  rcases Comment.takeType_cases h.type_eq with ⟨hnone, -⟩ | ⟨inside, _, hsome, -, -, hclose⟩
  · rw [htype] at hnone
    exact absurd hnone (by simp)
  · rw [htype] at hsome
    rw [Option.some.inj hsome, String.toList_ofList]
    exact hclose other

theorem name_isInfix {name : String} (hname : tag.name = some name) : name.toList <:+: header := by
  apply h.infix_header
  rw [h.behind_eq, hname]
  exact (List.prefix_append name.toList rest).isInfix

theorem firstLine_isInfix : tag.firstLine <:+: header := by
  apply h.infix_header
  rw [h.firstLine_eq, h.behind_eq]
  refine (Text.trimEnd_prefix _).isInfix.trans ?_
  refine (Text.trimStart_suffix rest).isInfix.trans ?_
  exact (List.suffix_append _ rest).isInfix

theorem canonical (hline : Comment.Legible ('@' :: header)) (hmore : tag.moreLines <+: others)
    (hothers : ∀ line ∈ others, Comment.Legible line ∧ Comment.tagHeader? line = none)
    (hdescription : ∀ d ∈ tag.description,
      trimEnd d.toList = d.toList ∧ Text.isAllBlank d.toList = false)
    (hname : tag.type.isSome = true →
      ∀ name ∈ tag.name, Comment.startsTag name.toList = false) : tag.Canonical where
  kind_ne := h.kind_ne
  kind_solid := h.kind_solid
  name_ne := h.name_ne
  name_solid := h.name_solid
  type_oneLine type htype hmem :=
    hline.oneLine (List.mem_cons_of_mem '@' ((h.type_isInfix htype).subset hmem))
  type_closed type htype := h.type_closed htype
  type_absent := h.type_absent
  description_trimmed d hd := (hdescription d hd).1
  description_solid d hd := (hdescription d hd).2
  firstLine_trimmed := by rw [h.firstLine_eq, Text.trim_trim]
  firstLine_absent hnone := by
    rw [h.firstLine_eq, h.rest_eq_nil hnone]
    rfl
  more_legible line hmem := (hothers line (hmore.subset hmem)).1
  more_plain line hmem := (hothers line (hmore.subset hmem)).2
  uncut := h.uncut hline hname
  kind_unclosed := by
    apply not_blockEnd_of_infix hline
    rw [h.header_eq]
    exact (List.prefix_append _ afterKind).isInfix
  name_unclosed name hmem := not_blockEnd_of_infix hline (h.name_isInfix hmem)
  type_unclosed type htype := not_blockEnd_of_infix hline (h.type_isInfix htype)
  firstLine_unclosed := not_blockEnd_of_infix hline h.firstLine_isInfix

end ReadFrom

/-- The tag read from a legible line is canonical. -/
theorem canonical_readTag (hline : Comment.Legible ('@' :: header))
    (hsolid : ∃ c cs, header = c :: cs ∧ isBlank c = false)
    (hothers : ∀ line ∈ others, Comment.Legible line ∧ Comment.tagHeader? line = none)
    (hread : Comment.readTag header others = tag) (hname : tag.type.isSome = true →
      ∀ name ∈ tag.name, Comment.startsTag name.toList = false) : tag.Canonical := by
  obtain ⟨afterKind, behind, rest, h, hmore, hdescription⟩ :=
    exists_readFrom hline hsolid fun line hmem => (hothers line hmem).1
  rw [hread] at h hmore hdescription
  exact h.canonical hline hmore hothers hdescription hname

end DocBlock.Tag

namespace DocBlock.Comment

open DocBlock.Text (isBlank trim trimEnd trimStart)

/-! ## Reading -/

theorem canonical_empty : empty.Canonical := by
  refine ⟨?_, ?_, ?_, ?_, ?_⟩
  · exact fun d hd => absurd hd (by simp [empty])
  · exact fun d hd => absurd hd (by simp [empty])
  · exact fun line hline => absurd hline List.not_mem_nil
  · exact fun line hline => absurd hline List.not_mem_nil
  · exact fun tag htag => absurd htag List.not_mem_nil

/-- A comment put together from legible lines is canonical. -/
theorem canonical_ofLines {ls : List (List Char)} (hls : ∀ line ∈ ls, Legible line)
    (hname : ∀ tag ∈ (ofLines ls).tags, tag.type.isSome = true →
      ∀ name ∈ tag.name, startsTag name.toList = false) : (ofLines ls).Canonical := by
  obtain ⟨hprose, htags⟩ := sections_spec ls
  have hlegible : ∀ line ∈ (sections ls).1, Legible line ∧ tagHeader? line = none := by
    intro line hline
    exact ⟨hls line (hprose line hline).1, (hprose line hline).2⟩
  have hdescription : ∀ d ∈ (ofLines ls).description,
      d.toList = trim (Text.join ['\n'] (sections ls).1) ∧ d.toList ≠ [] := by
    intro d hd
    simp only [ofLines, Option.mem_def] at hd
    split at hd
    · exact absurd hd (by simp)
    · rename_i hne
      rw [← Option.some.inj hd, String.toList_ofList]
      exact ⟨rfl, by simpa using hne⟩
  have hlines : ∀ line ∈ (ofLines ls).prose, Legible line ∧ tagHeader? line = none := by
    intro line hline
    rw [prose] at hline
    cases hd : (ofLines ls).description with
    | none =>
      rw [hd] at hline
      exact absurd hline List.not_mem_nil
    | some d =>
      obtain ⟨hd_eq, hd_ne⟩ := hdescription d hd
      rw [hd, Option.elim_some, hd_eq] at hline
      exact splitOn_trim_join hlegible (hd_eq ▸ hd_ne) line hline
  refine ⟨fun d hd => (hdescription d hd).2, ?_, fun line hline => (hlines line hline).1,
    fun line hline => (hlines line hline).2, ?_⟩
  · intro d hd
    rw [(hdescription d hd).1, Text.trim_trim]
  · intro tag htag
    have hname_tag := hname tag htag
    obtain ⟨⟨header, others⟩, hmem, rfl⟩ := List.mem_map.1 htag
    obtain ⟨⟨line, hline, hheader⟩, hothers⟩ := htags header others hmem
    obtain ⟨hstart, hsolid⟩ := tagHeader?_spec hheader
    refine Tag.canonical_readTag (hstart ▸ (hls line hline).trimStart) hsolid ?_ rfl hname_tag
    intro other hother
    exact ⟨hls other (hothers other hother).1, (hothers other hother).2⟩

/-- Whatever is read is canonical, unless a name behind a type looks like a tag. -/
theorem canonical_read (raw : List Char) (hname : ∀ tag ∈ (read raw).tags, tag.type.isSome = true →
      ∀ name ∈ tag.name, startsTag name.toList = false) : (read raw).Canonical := by
  rw [read] at hname ⊢
  cases hcontent : blockContent? raw with
  | none => exact canonical_empty
  | some content =>
    rw [hcontent] at hname
    refine canonical_ofLines ?_ hname
    intro line hline
    exact legible_of_mem_contentLines (blockContent?_unclosed hcontent) hline

/-- Reading settles at once: what is read is written as a block that is read the same and written
the same, unless a tag has a type and behind it a name that looks like a tag. -/
theorem ofString_text_ofString (raw : String)
    (hname : ∀ tag ∈ (ofString raw).tags, tag.type.isSome = true →
      ∀ name ∈ tag.name, startsTag name.toList = false) :
    ofString (ofString raw).text = ofString raw ∧
      (ofString (ofString raw).text).text = (ofString raw).text := by
  have hread : ofString (ofString raw).text = ofString raw := by
    show read (String.ofList (read raw.toList).render).toList = read raw.toList
    rw [String.toList_ofList, read_render (canonical_read raw.toList hname)]
  exact ⟨hread, by rw [hread]⟩

/-- A text with tags in the middle of lines, braces that are never closed, a margin of two stars and
blanks of several kinds. -/
def crowdedBlock : String :=
  "before /*** one\u2003@two \x7bA\x7d  \x7b b\r\n  c \x7d @three\x7b \x7bx\x7d\x7d@ y\n\t** @four \x7bB@in x \n\n e  */"

theorem ofString_text_ofString_crowdedBlock :
    (∀ tag ∈ (ofString crowdedBlock).tags, tag.type.isSome = true →
      ∀ name ∈ tag.name, startsTag name.toList = false) ∧
      ofString (ofString crowdedBlock).text = ofString crowdedBlock ∧
        (ofString (ofString crowdedBlock).text).text = (ofString crowdedBlock).text := by
  have hname : ∀ tag ∈ (ofString crowdedBlock).tags, tag.type.isSome = true →
      ∀ name ∈ tag.name, startsTag name.toList = false := by decide +kernel
  exact ⟨hname, ofString_text_ofString crowdedBlock hname⟩

end DocBlock.Comment
