import DocBlock.Comment.Printer
import DocBlock.Proofs.Comment.TagLine

/-! # Comments in canonical form

A tag is canonical when nothing in it can be mistaken for the margin, for another tag or for the end
of the block: words are words, types are closed, and each line stands for itself. A canonical tag is
written as its line and the other lines of its description (`render_eq`), and is read back from them
(`readTag_header`). -/

namespace DocBlock

open DocBlock.Text (isBlank trim trimEnd trimStart)

/-- What ends a block. -/
def blockEnd : List Char := ['*', '/']

theorem not_blockEnd_append {sep : Char} {a b : List Char} (hsep : sep ∉ blockEnd)
    (ha : ¬ blockEnd <:+: a) (hb : ¬ blockEnd <:+: b) : ¬ blockEnd <:+: a ++ sep :: b := by
  intro h
  rcases Text.infix_or_infix_of_infix_append hsep h with h | h
  · exact ha h
  · exact hb h

namespace Comment

/-- A line that is written behind a margin and read back as it is. -/
structure Legible (line : List Char) : Prop where
  oneLine : '\n' ∉ line
  trimmed : trimEnd line = line
  uncut : splitInlineTags line = [line]
  unclosed : ¬ blockEnd <:+: line

end Comment

namespace Tag

variable {tag : Tag} {pad : List (List Char)}

/-! ## The parts of a tag -/

/-- The lines of the description. -/
def prose (tag : Tag) : List (List Char) :=
  tag.description.elim [] fun d => Text.splitOn '\n' d.toList

/-- The line of the description that stands behind the name. -/
def firstLine (tag : Tag) : List Char :=
  tag.prose.headD []

/-- The lines of the description that stand on lines of their own. -/
def moreLines (tag : Tag) : List (List Char) :=
  tag.prose.tail

/-- The type as it is written. -/
def typeText (tag : Tag) : List Char :=
  tag.type.elim [] fun type => ' ' :: '\x7b' :: (type.toList ++ ['\x7d'])

/-- The name and the first line of the description as they are written. -/
def subject (tag : Tag) : List Char :=
  tag.name.elim [] fun name =>
    name.toList ++ (if tag.firstLine.isEmpty then [] else ' ' :: tag.firstLine)

/-- The line of the tag after its `@`. -/
def header (tag : Tag) : List Char :=
  tag.kind.toList ++ (tag.typeText ++ (if tag.subject.isEmpty then [] else ' ' :: tag.subject))

/-- A tag that is written and read back as it is. -/
structure Canonical (tag : Tag) : Prop where
  kind_ne : tag.kind.toList ≠ []
  kind_solid : ∀ c ∈ tag.kind.toList, isBlank c = false
  name_ne : ∀ name ∈ tag.name, name.toList ≠ []
  name_solid : ∀ name ∈ tag.name, ∀ c ∈ name.toList, isBlank c = false
  type_oneLine : ∀ type ∈ tag.type, '\n' ∉ type.toList
  /-- The type ends at the brace behind it. -/
  type_closed : ∀ type ∈ tag.type, ∀ rest,
    Comment.closeBrace? 0 (type.toList ++ '\x7d' :: rest) = some (type.toList, rest)
  /-- Without a type, what follows is not taken for one. -/
  type_absent : tag.type = none → Comment.takeType tag.subject = (none, tag.subject)
  description_trimmed : ∀ d ∈ tag.description, trimEnd d.toList = d.toList
  description_solid : ∀ d ∈ tag.description, Text.isAllBlank d.toList = false
  firstLine_trimmed : trim tag.firstLine = tag.firstLine
  /-- Without a name, the first word of the description would be taken for one. -/
  firstLine_absent : tag.name = none → tag.firstLine = []
  more_legible : ∀ line ∈ tag.moreLines, Comment.Legible line
  more_plain : ∀ line ∈ tag.moreLines, Comment.tagHeader? line = none
  uncut : Comment.splitInlineTags ('@' :: tag.header) = ['@' :: tag.header]
  kind_unclosed : ¬ blockEnd <:+: tag.kind.toList
  name_unclosed : ∀ name ∈ tag.name, ¬ blockEnd <:+: name.toList
  type_unclosed : ∀ type ∈ tag.type, ¬ blockEnd <:+: type.toList
  firstLine_unclosed : ¬ blockEnd <:+: tag.firstLine

/-! ## The lines of a description -/

theorem prose_of_some {d : String} (h : tag.description = some d) :
    tag.prose = Text.splitOn '\n' d.toList := by
  rw [prose, h]
  rfl

theorem prose_of_none (h : tag.description = none) : tag.prose = [] := by
  rw [prose, h]
  rfl

theorem prose_eq_cons {d : String} (h : tag.description = some d) :
    Text.splitOn '\n' d.toList = tag.firstLine :: tag.moreLines := by
  obtain ⟨first, more, hcons⟩ := List.exists_cons_of_ne_nil (Text.splitOn_ne_nil '\n' d.toList)
  rw [firstLine, moreLines, prose_of_some h, hcons]
  rfl

theorem newline_not_mem_firstLine (tag : Tag) : '\n' ∉ tag.firstLine := by
  cases h : tag.description with
  | none =>
    rw [firstLine, prose_of_none h]
    simp
  | some d =>
    have hcons := prose_eq_cons h
    exact Text.not_mem_of_mem_splitOn (hcons ▸ List.mem_cons_self)

namespace Canonical

theorem trimEnd_of_mem_prose (h : tag.Canonical) {d : String} (hd : tag.description = some d) :
    ∀ line ∈ Text.splitOn '\n' d.toList, trimEnd line = line := by
  intro line hline
  rw [prose_eq_cons hd] at hline
  rcases List.mem_cons.1 hline with rfl | hline
  · rw [← h.firstLine_trimmed]
    exact Text.trimEnd_trim _
  · exact (h.more_legible line hline).trimmed

theorem getLast?_prose (h : tag.Canonical) {d : String} (hd : tag.description = some d) :
    (Text.splitOn '\n' d.toList).getLast? ≠ some [] := by
  apply Text.getLast?_splitOn_ne _ (h.description_trimmed d hd)
  intro hnil
  have hsolid := h.description_solid d hd
  rw [hnil] at hsolid
  exact absurd hsolid (by simp)

/-- The lines of a canonical description are its pieces between line feeds. -/
theorem lines_description (h : tag.Canonical) {d : String} (hd : tag.description = some d) :
    Text.lines d.toList = tag.firstLine :: tag.moreLines := by
  rw [← prose_eq_cons hd]
  exact Text.lines_eq_splitOn (h.trimEnd_of_mem_prose hd) (h.getLast?_prose hd)

/-! ## Writing a tag -/

theorem renderDescription_eq (h : tag.Canonical) :
    (tag.description.elim [] fun d => renderDescription d.toList) =
      (if tag.firstLine.isEmpty then [] else ' ' :: tag.firstLine) ++
        tag.moreLines.flatMap Comment.continuation := by
  cases hd : tag.description with
  | none =>
    rw [firstLine, moreLines, prose_of_none hd]
    rfl
  | some d =>
    rw [Option.elim_some, renderDescription, h.lines_description hd]
    simp only [h.firstLine_trimmed]

theorem subject_ne_nil (h : tag.Canonical) {name : String} (hname : tag.name = some name) :
    tag.subject ≠ [] := by
  rw [subject, hname]
  simp [h.name_ne name hname]

theorem subject_of_name_none (h : tag.name = none) : tag.subject = [] := by
  rw [subject, h]
  rfl

/-- A canonical tag is written as its line and the other lines of its description. -/
theorem render_eq (h : tag.Canonical) :
    tag.render = " * @".toList ++ tag.header ++ tag.moreLines.flatMap Comment.continuation := by
  have htype : (tag.type.elim [] fun type => " \x7b".toList ++ type.toList ++ "\x7d".toList) =
      tag.typeText := by
    rw [typeText]
    cases tag.type <;> rfl
  unfold render header
  simp only [h.renderDescription_eq, htype]
  cases hname : tag.name with
  | none =>
    rw [h.firstLine_absent hname, subject_of_name_none hname]
    simp
  | some name =>
    have hne : name.toList ≠ [] := h.name_ne name hname
    have hempty : name.isEmpty = false := by simpa [String.toList_eq_nil_iff] using hne
    have hsubject : tag.subject.isEmpty = false := by simpa using h.subject_ne_nil hname
    rw [hsubject, subject, hname, Option.elim_some, Option.elim_some, hempty]
    simp

/-! ## The line of a tag is legible -/

theorem newline_not_mem_header (h : tag.Canonical) : '\n' ∉ tag.header := by
  have hblank : ∀ cs : List Char, (∀ c ∈ cs, isBlank c = false) → '\n' ∉ cs := by
    intro cs hcs hmem
    exact absurd (hcs '\n' hmem) (by decide)
  have hkind := hblank _ h.kind_solid
  have htype : '\n' ∉ tag.typeText := by
    rw [typeText]
    cases htype : tag.type with
    | none => simp
    | some type => simp [h.type_oneLine type htype]
  have hsubject : '\n' ∉ tag.subject := by
    rw [subject]
    cases hname : tag.name with
    | none => simp
    | some name =>
      have hmem := hblank _ (h.name_solid name hname)
      have hfirst := newline_not_mem_firstLine tag
      rw [Option.elim_some]
      split <;> simp [hmem, hfirst]
  rw [header]
  split <;> simp [hkind, htype, hsubject]

theorem trimEnd_subject (h : tag.Canonical) : trimEnd tag.subject = tag.subject := by
  rw [subject]
  cases hname : tag.name with
  | none => rfl
  | some name =>
    rw [Option.elim_some]
    split
    · rw [List.append_nil]
      apply Text.trimEnd_eq_self_of_getLast
      intro c hc
      exact h.name_solid name hname c (List.mem_of_getLast? hc)
    · rename_i hfirst
      have hself : trimEnd tag.firstLine = tag.firstLine := by
        rw [← h.firstLine_trimmed]
        exact Text.trimEnd_trim _
      have hne : trimEnd tag.firstLine ≠ [] := by rw [hself]; simpa using hfirst
      rw [← List.singleton_append, ← List.append_assoc, Text.trimEnd_append_of_ne_nil hne, hself]

theorem trimEnd_header (h : tag.Canonical) : trimEnd tag.header = tag.header := by
  have hkind : trimEnd tag.kind.toList = tag.kind.toList := by
    apply Text.trimEnd_eq_self_of_getLast
    intro c hc
    exact h.kind_solid c (List.mem_of_getLast? hc)
  have hkind_ne : trimEnd tag.kind.toList ≠ [] := by rw [hkind]; exact h.kind_ne
  rw [header]
  split
  · rw [List.append_nil, typeText]
    cases tag.type with
    | none => rw [Option.elim_none, List.append_nil, hkind]
    | some type =>
      rw [Option.elim_some, ← List.cons_append, ← List.cons_append, ← List.append_assoc]
      exact Text.trimEnd_concat_of_solid (by decide)
  · rename_i hsubject
    have hne : trimEnd tag.subject ≠ [] := by rw [h.trimEnd_subject]; simpa using hsubject
    rw [← List.singleton_append, ← List.append_assoc, ← List.append_assoc,
      Text.trimEnd_append_of_ne_nil hne, h.trimEnd_subject]

theorem subject_unclosed (h : tag.Canonical) : ¬ blockEnd <:+: tag.subject := by
  cases hname : tag.name with
  | none =>
    rw [subject_of_name_none hname]
    decide
  | some name =>
    rw [subject, hname, Option.elim_some]
    split
    · rw [List.append_nil]
      exact h.name_unclosed name hname
    · exact not_blockEnd_append (by decide) (h.name_unclosed name hname) h.firstLine_unclosed

theorem header_unclosed (h : tag.Canonical) : ¬ blockEnd <:+: tag.header := by
  have htail : ¬ blockEnd <:+: (if tag.subject.isEmpty then [] else ' ' :: tag.subject) := by
    split
    · decide
    · exact not_blockEnd_append (a := []) (by decide) (by decide) h.subject_unclosed
  rw [header, typeText]
  cases htype : tag.type with
  | none =>
    rw [Option.elim_none, List.nil_append]
    split
    · rw [List.append_nil]
      exact h.kind_unclosed
    · exact not_blockEnd_append (by decide) h.kind_unclosed h.subject_unclosed
  | some type =>
    rw [Option.elim_some, List.cons_append, List.cons_append, List.append_assoc,
      List.singleton_append]
    refine not_blockEnd_append (by decide) h.kind_unclosed ?_
    refine not_blockEnd_append (a := []) (by decide) (by decide) ?_
    exact not_blockEnd_append (by decide) (h.type_unclosed type htype) htail

theorem head_legible (h : tag.Canonical) : Comment.Legible ('@' :: tag.header) where
  oneLine := by simp [h.newline_not_mem_header]
  trimmed := by
    have hne : trimEnd tag.header ≠ [] := by
      rw [h.trimEnd_header, header]
      simp [h.kind_ne]
    rw [← List.singleton_append, Text.trimEnd_append_of_ne_nil hne, h.trimEnd_header]
  uncut := h.uncut
  unclosed := not_blockEnd_append (a := []) (by decide) (by decide) h.header_unclosed

/-! ## Reading a tag -/

theorem tagHeader?_header (h : tag.Canonical) :
    Comment.tagHeader? ('@' :: tag.header) = some tag.header := by
  obtain ⟨c, kind, hkind⟩ := List.exists_cons_of_ne_nil h.kind_ne
  have hc : isBlank c = false := h.kind_solid c (by simp [hkind])
  rw [Comment.tagHeader?, Text.trimStart_cons_of_solid (by decide)]
  simp [header, hkind, hc]

/-- Empty lines behind a tag do not belong to its description. -/
theorem tagDescription?_eq (h : tag.Canonical) (hpad : ∀ line ∈ pad, line = []) :
    Comment.tagDescription? tag.firstLine (tag.moreLines ++ pad) = tag.description := by
  have hpadTrim : ∀ line ∈ pad, trimEnd line = line := by
    intro line hline
    rw [hpad line hline]
    rfl
  cases hd : tag.description with
  | none =>
    rw [Comment.tagDescription?, firstLine, moreLines, prose_of_none hd, List.tail_nil,
      List.nil_append, List.headD_nil]
    -- Nothing but padding is left, which is no description.
    have hempty : ∀ line ∈ [] :: pad, line = [] := by simpa using hpad
    have hjoin : trimEnd (Text.join ['\n'] ([] :: pad)) = [] := by
      rw [Text.trimEnd_join (by simpa using hpadTrim), ← List.nil_append ([] :: pad),
        Text.dropEmptyEnd_append_empty hempty]
      rfl
    rw [hjoin]
    rfl
  | some d =>
    have hlines := prose_eq_cons hd
    have htrim : ∀ line ∈ tag.firstLine :: (tag.moreLines ++ pad), trimEnd line = line := by
      intro line hline
      rw [← List.cons_append, ← hlines, List.mem_append] at hline
      exact hline.elim (h.trimEnd_of_mem_prose hd line) (hpadTrim line)
    have hjoin : trimEnd (Text.join ['\n'] (tag.firstLine :: (tag.moreLines ++ pad))) = d.toList := by
      rw [Text.trimEnd_join htrim, ← List.cons_append, Text.dropEmptyEnd_append_empty hpad, ← hlines,
        Text.dropEmptyEnd_eq_self (h.getLast?_prose hd), Text.join_splitOn]
    rw [Comment.tagDescription?, hjoin, h.description_solid d hd]
    simp

/-- The text behind the type starts with the name. -/
theorem trimStart_subject (h : tag.Canonical) : trimStart tag.subject = tag.subject := by
  cases hname : tag.name with
  | none =>
    rw [subject_of_name_none hname]
    rfl
  | some name =>
    obtain ⟨c, rest, hcons⟩ := List.exists_cons_of_ne_nil (h.name_ne name hname)
    have hc : isBlank c = false := h.name_solid name hname c (by simp [hcons])
    rw [subject, hname, Option.elim_some, hcons, List.cons_append, Text.trimStart_cons_of_solid hc]

theorem trimStart_behind (h : tag.Canonical) :
    trimStart (if tag.subject.isEmpty then [] else ' ' :: tag.subject) = tag.subject := by
  split
  · rename_i hempty
    rw [List.isEmpty_iff.1 hempty]
    rfl
  · rw [Text.trimStart_cons_of_blank (by decide), h.trimStart_subject]

theorem takeType_eq (h : tag.Canonical) :
    Comment.takeType (trimStart (tag.typeText ++
      (if tag.subject.isEmpty then [] else ' ' :: tag.subject))) = (tag.type, tag.subject) := by
  rw [typeText]
  cases htype : tag.type with
  | none => rw [Option.elim_none, List.nil_append, h.trimStart_behind, h.type_absent htype]
  | some type =>
    rw [Option.elim_some, List.cons_append, List.cons_append, List.append_assoc,
      List.singleton_append, Text.trimStart_cons_of_blank (by decide),
      Text.trimStart_cons_of_solid (by decide), Comment.takeType]
    simp only [h.type_closed type htype, h.trimStart_behind, String.ofList_toList]

theorem takeWord_subject (h : tag.Canonical) :
    Comment.takeWord tag.subject = (tag.name.elim [] String.toList,
      if tag.firstLine.isEmpty then [] else ' ' :: tag.firstLine) := by
  cases hname : tag.name with
  | none =>
    rw [subject_of_name_none hname, h.firstLine_absent hname]
    rfl
  | some name =>
    rw [subject, hname, Option.elim_some, Option.elim_some]
    refine Comment.takeWord_append (h.name_solid name hname) ?_
    intro c hc
    split at hc
    · simp at hc
    · obtain rfl : ' ' = c := by simpa using hc
      rfl

/-- A canonical tag is read back from its line and the lines behind it. -/
theorem readTag_header (h : tag.Canonical) (hpad : ∀ line ∈ pad, line = []) :
    Comment.readTag tag.header (tag.moreLines ++ pad) = tag := by
  have hkind : Comment.takeWord tag.header =
      (tag.kind.toList, tag.typeText ++ (if tag.subject.isEmpty then [] else ' ' :: tag.subject)) := by
    refine Comment.takeWord_append h.kind_solid ?_
    intro c hc
    rw [typeText] at hc
    cases htype : tag.type with
    | none =>
      rw [htype, Option.elim_none, List.nil_append] at hc
      split at hc
      · simp at hc
      · obtain rfl : ' ' = c := by simpa using hc
        rfl
    | some type =>
      obtain rfl : ' ' = c := by simpa [htype] using hc
      rfl
  -- The space in front of the first line of the description is written and trimmed away again.
  have hfirst : trim (if tag.firstLine.isEmpty then [] else ' ' :: tag.firstLine) = tag.firstLine := by
    split
    · rename_i hempty
      rw [List.isEmpty_iff.1 hempty]
      rfl
    · rw [trim, Text.trimStart_cons_of_blank (by decide), ← trim, h.firstLine_trimmed]
  have hname : (if (tag.name.elim [] String.toList).isEmpty then none
      else some (String.ofList (tag.name.elim [] String.toList))) = tag.name := by
    cases hname : tag.name with
    | none => rfl
    | some name => simp [h.name_ne name hname]
  simp only [Comment.readTag, hkind, h.takeType_eq, h.takeWord_subject, hfirst, hname,
    h.tagDescription?_eq hpad, String.ofList_toList]

end Canonical

end Tag

end DocBlock
