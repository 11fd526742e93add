import Mathlib.Tactic.MkIffOfInductiveProp
import DocBlock.Comment.Collection
import DocBlock.Proofs.Comment.Block

/-! # Reading what was written

A well-formed comment says of each of its fields what keeps it apart from its neighbours. Such a
comment is canonical (`WellFormed.canonical`), so its block is read back as it was. The blocks of a
collection stand a blank line apart and hold none, so that cutting the text of the collection at its
blank lines gives the blocks back, and with them the entries (`blocks_text_and_read`). -/

namespace DocBlock

open DocBlock.Text (isBlank trim trimEnd trimStart)

/-! ## Well-formed comments -/

/-- A text that is read as one word. -/
def IsWord (text : String) : Prop :=
  text.toList ≠ [] ∧ ∀ c ∈ text.toList, isBlank c = false

instance (text : String) : Decidable (IsWord text) :=
  have := List.decidableBAll (fun c => isBlank c = false) text.toList
  inferInstanceAs (Decidable (_ ∧ _))

namespace Tag

variable {tag : Tag}

/-- The texts a tag is made of. -/
def fields (tag : Tag) : List String :=
  tag.kind :: (tag.name.toList ++ tag.type.toList ++ tag.description.toList)

/-- A tag whose fields are kept apart by the way they are written. -/
@[mk_iff]
structure WellFormed (tag : Tag) : Prop where
  unclosed : ∀ field ∈ tag.fields, ¬ blockEnd <:+: field.toList
  kind : IsWord tag.kind
  name : ∀ name ∈ tag.name, IsWord name
  name_noBrace : tag.type = none → ∀ name ∈ tag.name, name.toList.head? ≠ some '\x7b'
  type_oneLine : ∀ type ∈ tag.type, '\n' ∉ type.toList
  type_balanced : ∀ type ∈ tag.type, Comment.Balanced type.toList
  description_solid : ∀ d ∈ tag.description, Text.isAllBlank d.toList = false
  description_trimmed : ∀ d ∈ tag.description, trimEnd d.toList = d.toList
  lines_trimmed : ∀ line ∈ tag.prose, trimEnd line = line
  firstLine_trimmed : trimStart tag.firstLine = tag.firstLine
  /-- Without a name, the first word of the description would be taken for one. -/
  firstLine_absent : tag.name = none → tag.firstLine = []
  head_uncut : Comment.splitInlineTags ('@' :: tag.header) = ['@' :: tag.header]
  more_uncut : ∀ line ∈ tag.moreLines, Comment.splitInlineTags line = [line]
  more_plain : ∀ line ∈ tag.moreLines, Comment.tagHeader? line = none

instance (tag : Tag) : Decidable tag.WellFormed :=
  decidable_of_iff' _ (wellFormed_iff tag)

namespace WellFormed

theorem infix_of_mem_prose {line : List Char} (h : line ∈ tag.prose) :
    ∃ d ∈ tag.description, line <:+: d.toList := by
  cases hd : tag.description with
  | none =>
    rw [prose_of_none hd] at h
    exact absurd h List.not_mem_nil
  | some d =>
    refine ⟨d, rfl, ?_⟩
    rw [prose_of_some hd] at h
    have hin := Text.infix_join_of_mem ['\n'] h
    rw [Text.join_splitOn] at hin
    exact hin

theorem line_unclosed (h : tag.WellFormed) {line : List Char} (hline : line ∈ tag.prose) :
    ¬ blockEnd <:+: line := by
  intro hin
  obtain ⟨d, hd, hinfix⟩ := infix_of_mem_prose hline
  refine h.unclosed d ?_ (hin.trans hinfix)
  simp only [fields, Option.mem_def.1 hd, Option.toList_some, List.mem_cons, List.mem_append,
    List.not_mem_nil, or_false, or_true]

theorem firstLine_unclosed (h : tag.WellFormed) : ¬ blockEnd <:+: tag.firstLine := by
  rw [firstLine]
  cases hprose : tag.prose with
  | nil => decide
  | cons first more => exact h.line_unclosed (by rw [hprose]; exact List.mem_cons_self)

theorem trimEnd_firstLine (h : tag.WellFormed) : trimEnd tag.firstLine = tag.firstLine := by
  rw [firstLine]
  cases hprose : tag.prose with
  | nil => rfl
  | cons first more => exact h.lines_trimmed first (by rw [hprose]; exact List.mem_cons_self)

theorem more_legible (h : tag.WellFormed) : ∀ line ∈ tag.moreLines, Comment.Legible line := by
  intro line hline
  have hmem : line ∈ tag.prose := List.mem_of_mem_tail hline
  have honeLine : '\n' ∉ line := by
    cases hd : tag.description with
    | none =>
      rw [prose_of_none hd] at hmem
      exact absurd hmem List.not_mem_nil
    | some d =>
      rw [prose_of_some hd] at hmem
      exact Text.not_mem_of_mem_splitOn hmem
  exact ⟨honeLine, h.lines_trimmed line hmem, h.more_uncut line hline, h.line_unclosed hmem⟩

/-- Without a type, the name does not look like one. -/
theorem type_absent (h : tag.WellFormed) (htype : tag.type = none) :
    Comment.takeType tag.subject = (none, tag.subject) := by
  have hhead : tag.subject.head? ≠ some '\x7b' := by
    rw [subject]
    cases hname : tag.name with
    | none => simp
    | some name =>
      obtain ⟨hne, -⟩ := h.name name hname
      obtain ⟨c, rest, hcons⟩ := List.exists_cons_of_ne_nil hne
      have hbrace := h.name_noBrace htype name hname
      rw [hcons] at hbrace
      rw [Option.elim_some, hcons]
      exact hbrace
  rw [Comment.takeType]
  intro rest heq
  exact hhead (by rw [heq]; rfl)

/-- A well-formed tag is canonical. -/
theorem canonical (h : tag.WellFormed) : tag.Canonical where
  kind_ne := h.kind.1
  kind_solid := h.kind.2
  name_ne name hname := (h.name name hname).1
  name_solid name hname := (h.name name hname).2
  type_oneLine := h.type_oneLine
  type_closed type htype rest := (h.type_balanced type htype).closeBrace? rest
  type_absent := h.type_absent
  description_trimmed := h.description_trimmed
  description_solid := h.description_solid
  firstLine_trimmed := Text.trim_eq_self h.firstLine_trimmed h.trimEnd_firstLine
  firstLine_absent := h.firstLine_absent
  more_legible := h.more_legible
  more_plain := h.more_plain
  uncut := h.head_uncut
  kind_unclosed := h.unclosed tag.kind List.mem_cons_self
  name_unclosed name hname := h.unclosed name (by simp [fields, Option.mem_def.1 hname])
  type_unclosed type htype := h.unclosed type (by simp [fields, Option.mem_def.1 htype])
  firstLine_unclosed := h.firstLine_unclosed

end WellFormed

end Tag

namespace Comment

variable {c : Comment} {a b : List Char}

/-- A comment whose parts are kept apart by the way they are written. -/
@[mk_iff]
structure WellFormed (c : Comment) : Prop where
  description_ne : ∀ d ∈ c.description, d.toList ≠ []
  description_trimmed : ∀ d ∈ c.description, trim d.toList = d.toList
  description_unclosed : ∀ d ∈ c.description, ¬ blockEnd <:+: d.toList
  lines_trimmed : ∀ line ∈ c.prose, trimEnd line = line
  lines_plain : ∀ line ∈ c.prose, tagHeader? line = none
  lines_uncut : ∀ line ∈ c.prose, splitInlineTags line = [line]
  tags : ∀ tag ∈ c.tags, tag.WellFormed

instance (c : Comment) : Decidable c.WellFormed :=
  decidable_of_iff' _ (wellFormed_iff c)

/-- A well-formed comment is canonical. -/
theorem WellFormed.canonical (h : c.WellFormed) : c.Canonical where
  description_ne := h.description_ne
  description_trimmed := h.description_trimmed
  prose_legible := by
    intro line hline
    cases hd : c.description with
    | none =>
      rw [prose, hd] at hline
      exact absurd hline List.not_mem_nil
    | some d =>
      have hmem : line ∈ Text.splitOn '\n' d.toList := by
        rw [prose, hd] at hline
        exact hline
      have hin := Text.infix_join_of_mem ['\n'] hmem
      rw [Text.join_splitOn] at hin
      refine ⟨Text.not_mem_of_mem_splitOn hmem, h.lines_trimmed line hline,
        h.lines_uncut line hline, ?_⟩
      intro hclosed
      exact h.description_unclosed d hd (hclosed.trans hin)
  prose_plain := h.lines_plain
  tags tag htag := (h.tags tag htag).canonical

end Comment

namespace Collection

variable {cs : Collection} {c : Comment} {x : Char} {a b : List Char} {ls bs : List (List Char)}

/-! ## Blank lines -/

/-- The pieces of a text between its blank lines, which are found from the left. -/
def pieces : List Char → List (List Char)
  | '\n' :: '\n' :: rest => [] :: pieces rest
  | c :: rest => Text.consFirst c (pieces rest)
  | [] => [[]]

/-- The blocks that stand a blank line apart in a text; an empty text holds none. -/
def blocks (text : String) : List String :=
  if text.isEmpty then [] else (pieces text.toList).map String.ofList

/-- A text that holds no blank line, also when a line feed is put behind it. -/
def Gapless (text : List Char) : Prop :=
  ¬ ['\n', '\n'] <:+: text ++ ['\n']

theorem pieces_cons (h : ¬ ['\n', '\n'] <+: x :: a) : pieces (x :: a) = Text.consFirst x (pieces a) := by
  rw [pieces]
  rintro rest rfl rfl
  exact h ⟨rest, rfl⟩

theorem startsGap_eq_false (h : ¬ ['\n', '\n'] <+: a) : startsGap a = false := by
  rw [startsGap]
  rintro rest rfl
  exact h ⟨'\n' :: rest, rfl⟩

theorem Gapless.tail (h : Gapless (x :: a)) : Gapless a := by
  intro hin
  exact h (hin.trans (List.suffix_cons x _).isInfix)

/-- Nothing behind a text makes a blank line start inside it. -/
theorem Gapless.not_prefix (h : Gapless (x :: a)) (b : List Char) :
    ¬ ['\n', '\n'] <+: x :: (a ++ '\n' :: b) := by
  intro hpre
  have hself : x :: a ++ ['\n'] <+: x :: (a ++ '\n' :: b) := ⟨b, by simp⟩
  exact h (List.prefix_of_prefix_length_le hpre hself (by simp)).isInfix

theorem Gapless.not_prefix_self (h : Gapless a) : ¬ ['\n', '\n'] <+: a := by
  intro hpre
  exact h (hpre.isInfix.trans (List.prefix_append a ['\n']).isInfix)

/-- Lines that are not empty make a text without a gap. -/
theorem gapless_join (hne : ls ≠ []) (hlines : ∀ l ∈ ls, l ≠ [] ∧ '\n' ∉ l) :
    Gapless (Text.join ['\n'] ls) := by
  rintro ⟨before, after, heq⟩
  -- Cutting both sides at the line feeds shows an empty line before the last one.
  have hjoin : Text.join ['\n'] ls ++ ['\n'] = Text.join ['\n'] (ls ++ [[]]) := by
    rw [Text.join_concat_of_ne_nil _ _ hne, List.append_nil]
  have hsplit : Text.splitOn '\n' (Text.join ['\n'] (ls ++ [[]])) = ls ++ [[]] := by
    refine Text.splitOn_join ?_ (by simp)
    intro l hl
    rcases List.mem_append.1 hl with hl | hl
    · exact (hlines l hl).2
    · rw [List.mem_singleton.1 hl]
      exact List.not_mem_nil
  have hcut : Text.splitOn '\n' (before ++ ['\n', '\n'] ++ after) =
      (Text.splitOn '\n' before ++ [[]]) ++ Text.splitOn '\n' after := by
    simp only [Text.splitOn_eq_list_splitOn, List.append_assoc, List.cons_append, List.nil_append]
    rw [List.splitOn_append_cons_self, ← List.nil_append ('\n' :: after),
      List.splitOn_append_cons_self, List.splitOn_nil, List.singleton_append]
  rw [heq, hjoin, hsplit] at hcut
  have hlast := congrArg List.dropLast hcut
  rw [List.dropLast_concat, List.dropLast_append_of_ne_nil (Text.splitOn_ne_nil _ _)] at hlast
  have hmem : [] ∈ ls := by
    rw [hlast]
    simp
  exact (hlines [] hmem).1 rfl

/-! ## Cutting at blank lines -/

theorem pieces_of_gapless (h : Gapless a) : pieces a = [a] := by
  induction a with
  | nil => rfl
  | cons x a ih =>
    rw [pieces_cons h.not_prefix_self, ih h.tail]
    rfl

theorem pieces_append (h : Gapless a) (b : List Char) :
    pieces (a ++ '\n' :: '\n' :: b) = a :: pieces b := by
  induction a with
  | nil => rfl
  | cons x a ih =>
    rw [List.cons_append, pieces_cons (h.not_prefix ('\n' :: b)), ih h.tail]
    rfl

theorem collapseGaps_of_gapless (h : Gapless a) : collapseGaps a = a := by
  induction a with
  | nil => rfl
  | cons x a ih =>
    rw [collapseGaps, startsGap_eq_false h.not_prefix_self, ih h.tail]
    rfl

theorem collapseGaps_append (h : Gapless a) (hb : b.head? ≠ some '\n') :
    collapseGaps (a ++ '\n' :: '\n' :: b) = a ++ '\n' :: '\n' :: collapseGaps b := by
  induction a with
  | nil =>
    cases b with
    | nil => rfl
    | cons y b =>
      have hy : y ≠ '\n' := by simpa using hb
      simp [collapseGaps, startsGap, hy]
  | cons x a ih =>
    rw [List.cons_append, collapseGaps, startsGap_eq_false (h.not_prefix ('\n' :: b)), ih h.tail]
    rfl

/-- Between blocks without gaps there is nothing to collapse. -/
theorem collapseGaps_join (h : ∀ b ∈ bs, Gapless b ∧ b ≠ [] ∧ b.head? ≠ some '\n') :
    collapseGaps (Text.join "\n\n".toList bs) = Text.join "\n\n".toList bs := by
  induction bs with
  | nil => rfl
  | cons b bs ih =>
    obtain ⟨hgapless, -, -⟩ := h b List.mem_cons_self
    have hrest : ∀ b' ∈ bs, Gapless b' ∧ b' ≠ [] ∧ b'.head? ≠ some '\n' := by
      intro b' hb'
      exact h b' (List.mem_cons_of_mem b hb')
    cases bs with
    | nil => rw [Text.join_singleton, collapseGaps_of_gapless hgapless]
    | cons next bs =>
      -- A third line feed would be taken for a part of the gap.
      have hnext : (Text.join "\n\n".toList (next :: bs)).head? ≠ some '\n' := by
        obtain ⟨-, hnext_ne, hnext_head⟩ := hrest next List.mem_cons_self
        cases bs with
        | nil => exact hnext_head
        | cons other bs =>
          rw [Text.join_cons_of_ne_nil _ _ (List.cons_ne_nil other bs), List.append_assoc,
            List.head?_append_of_ne_nil _ hnext_ne]
          exact hnext_head
      rw [Text.join_cons_of_ne_nil _ _ (List.cons_ne_nil next bs), List.append_assoc]
      show collapseGaps (b ++ '\n' :: '\n' :: Text.join _ (next :: bs)) = _
      rw [collapseGaps_append hgapless hnext, ih hrest]
      rfl

/-- Blocks without gaps are what stands between the blank lines. -/
theorem pieces_join (hne : bs ≠ []) (h : ∀ b ∈ bs, Gapless b) :
    pieces (Text.join "\n\n".toList bs) = bs := by
  induction bs with
  | nil => exact absurd rfl hne
  | cons b bs ih =>
    have hgapless := h b List.mem_cons_self
    cases bs with
    | nil => rw [Text.join_singleton, pieces_of_gapless hgapless]
    | cons next bs =>
      rw [Text.join_cons_of_ne_nil _ _ (List.cons_ne_nil next bs), List.append_assoc]
      show pieces (b ++ '\n' :: '\n' :: Text.join _ (next :: bs)) = b :: next :: bs
      rw [pieces_append hgapless,
        ih (List.cons_ne_nil next bs) fun b' hb' => h b' (List.mem_cons_of_mem b hb')]

/-! ## The blocks of a collection -/

/-- The block of a canonical comment is a list of lines that are not empty. -/
theorem render_gapless (h : c.Canonical) (hne : c.isEmpty = false) : Gapless c.render := by
  have hlines : c.render =
      Text.join ['\n'] ("/**".toList :: (c.written.map Comment.gutter ++ [" */".toList])) := by
    rw [h.render_eq_block hne, Comment.blockOf, List.cons_append, Text.join_cons_eq_flatMap,
      Text.join_cons_eq_flatMap, List.flatMap_append, List.flatMap_append]
    simp [blockEnd]
  rw [hlines]
  refine gapless_join (List.cons_ne_nil _ _) ?_
  intro l hl
  simp only [List.mem_cons, List.mem_append, List.mem_map, List.not_mem_nil, or_false] at hl
  rcases hl with rfl | ⟨line, hline, rfl⟩ | rfl
  · decide
  · exact ⟨Comment.gutter_ne_nil line,
      Comment.newline_not_mem_gutter (h.written_legible line hline).oneLine⟩
  · decide

theorem head?_render (hne : c.isEmpty = false) : c.render.head? = some '/' := by
  rw [Comment.render, hne]
  rfl

/-- The entries that are written. -/
def written (cs : Collection) : List Comment :=
  cs.entries.filter fun c => !c.isEmpty

theorem render_eq_join (cs : Collection) :
    cs.render = collapseGaps (Text.join "\n\n".toList (cs.written.map Comment.render)) :=
  rfl

theorem pieces_render (hne : cs.written ≠ []) (h : ∀ c ∈ cs.written, c.WellFormed) :
    pieces cs.render = cs.written.map Comment.render := by
  have hblocks : ∀ b ∈ cs.written.map Comment.render, Gapless b ∧ b ≠ [] ∧ b.head? ≠ some '\n' := by
    intro b hb
    obtain ⟨c, hc, rfl⟩ := List.mem_map.1 hb
    have hsolid : c.isEmpty = false := by simpa using (List.mem_filter.1 hc).2
    have hhead := head?_render hsolid
    refine ⟨render_gapless (h c hc).canonical hsolid, ?_, ?_⟩
    · intro hempty
      rw [hempty] at hhead
      exact absurd hhead (by simp)
    · rw [hhead]
      decide
  rw [render_eq_join, collapseGaps_join hblocks]
  exact pieces_join (fun hnil => hne (List.map_eq_nil_iff.1 hnil)) fun b hb => (hblocks b hb).1

/-- Cutting the text of a collection of well-formed entries at its blank lines gives the block of
each entry that is not empty, in order. -/
theorem blocks_text (h : ∀ c ∈ cs.written, c.WellFormed) :
    blocks cs.text = cs.written.map Comment.text := by
  cases hentries : cs.written with
  | nil =>
    rw [text, render_eq_join, hentries]
    rfl
  | cons c rest =>
    have hpieces := pieces_render (by rw [hentries]; exact List.cons_ne_nil c rest) h
    -- The empty text has no blocks at all, not an empty one.
    have hsolid : cs.text.isEmpty = false := by
      rw [← Bool.not_eq_true, String.isEmpty_iff]
      intro hempty
      have hrender : cs.render = [] := by
        rw [← String.toList_ofList (l := cs.render)]
        show cs.text.toList = []
        rw [hempty]
        rfl
      have hc : c.isEmpty = false := by
        have hmem : c ∈ cs.written := by rw [hentries]; exact List.mem_cons_self
        simpa using (List.mem_filter.1 hmem).2
      have hhead := head?_render hc
      rw [hrender, hentries, List.map_cons] at hpieces
      rw [← (List.cons.inj hpieces).1] at hhead
      exact absurd hhead (by simp)
    rw [blocks, hsolid, ← hentries]
    show (pieces cs.text.toList).map String.ofList = _
    rw [text, String.toList_ofList, hpieces, List.map_map]
    rfl

/-- The text of a collection is taken apart again: its blocks are those of the well-formed entries
that are not empty, in the order of the entries, and each is read back as the entry it is the block
of. -/
theorem blocks_text_and_read (h : ∀ c ∈ cs.written, c.WellFormed) :
    blocks cs.text = cs.written.map Comment.text ∧
      (blocks cs.text).map Comment.ofString = cs.written := by
  refine ⟨blocks_text h, ?_⟩
  rw [blocks_text h, List.map_map]
  refine (List.map_congr_left ?_).trans (List.map_id _)
  intro c hc
  show Comment.read (String.ofList c.render).toList = c
  rw [String.toList_ofList, Comment.read_render (h c hc).canonical]

/-- Two entries around an empty one; types with braces in them, descriptions over several lines with
blank ones between, and tags without a name. -/
def sampleEntries : Collection where
  entries :=
    [{ description := some "Sums the parts.\n\n  Stars * stay, @ alone too."
       tags :=
        [{ kind := "param", name := some "[parts=1]", type := some "\x7b a: \x7bb?: T\x7d[] \x7d"
           description := some "What to sum,\n\nand \x7b@link how\x7d." },
         { kind := "returns", type := some "number" },
         { kind := "example", description := some "\n  sum([1])" }] },
     Comment.empty,
     { tags := [{ kind := "memberof", name := some "Math" }] }]

theorem blocks_text_and_read_sampleEntries :
    (∀ c ∈ sampleEntries.written, c.WellFormed) ∧
      blocks sampleEntries.text = sampleEntries.written.map Comment.text ∧
        (blocks sampleEntries.text).map Comment.ofString = sampleEntries.written := by
  have h : ∀ c ∈ sampleEntries.written, c.WellFormed := by decide +kernel
  exact ⟨h, blocks_text_and_read h⟩

end Collection

end DocBlock
