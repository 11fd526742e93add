import DocBlock.Proofs.Comment.RoundTrip
import DocBlock.Proofs.Comment.Stable

/-! # Texts that fit into a block

A text fits on a line of a block when it holds no line feed and no end of a block (`FitsLine`). Put
behind one another, such texts still fit unless one ends in a star and the next one starts with a slash
(`FitsLine.append`). A comment whose kinds, names and types fit on a line, and whose descriptions hold no
end of a block, is written as a block (`Fits.isBlock_render`), and a collection of such comments as blocks
with a blank line between each two (`isBlocks_render`). What is read from a hand-written comment fits
(`fits_read`), and so does a comment into which fitting tags are written (`Fits.put`). -/

namespace DocBlock

open DocBlock.Text (trim trimEnd trimStart)

variable {a b cs sep : List Char} {ls : List (List Char)}

/-! ## Lines -/

/-- A text that can stand on a line of a block. -/
structure FitsLine (cs : List Char) : Prop where
  oneLine : '\n' ∉ cs
  unclosed : ¬ blockEnd <:+: cs

instance (cs : List Char) : Decidable (FitsLine cs) :=
  decidable_of_iff ('\n' ∉ cs ∧ ¬ blockEnd <:+: cs) ⟨fun h => ⟨h.1, h.2⟩, fun h => ⟨h.1, h.2⟩⟩

theorem blockEnd_prefix_cons {c : Char} : blockEnd <+: c :: cs ↔ c = '*' ∧ cs.head? = some '/' := by
  constructor
  · rintro ⟨rest, heq⟩
    obtain ⟨hc, hrest⟩ := List.cons.inj heq
    rw [← hrest]
    exact ⟨hc.symm, rfl⟩
  · rintro ⟨rfl, hhead⟩
    obtain ⟨rest, rfl⟩ := List.head?_eq_some_iff.1 hhead
    exact ⟨rest, rfl⟩

/-- An end of a block that is in neither of two texts stands where they meet. -/
theorem not_blockEnd_infix_append (ha : ¬ blockEnd <:+: a) (hb : ¬ blockEnd <:+: b)
    (hmeet : a.getLast? ≠ some '*' ∨ b.head? ≠ some '/') : ¬ blockEnd <:+: a ++ b := by
  -- The second text only matters when a single character of the first one is left.
  induction a with
  | nil => exact hb
  | cons c a ih =>
    rw [List.cons_append, List.infix_cons_iff, not_or]
    have htail : ¬ blockEnd <:+: a := fun hin => ha (List.infix_cons hin)
    constructor
    · intro hstart
      obtain ⟨rfl, hhead⟩ := blockEnd_prefix_cons.1 hstart
      cases a with
      | nil =>
        rcases hmeet with hlast | hfirst
        · exact hlast rfl
        · exact hfirst hhead
      | cons d a =>
        have hslash : (d :: a).head? = some '/' := hhead
        exact ha (blockEnd_prefix_cons.2 ⟨rfl, hslash⟩).isInfix
    · cases a with
      | nil => exact hb
      | cons d a =>
        apply ih htail
        rwa [List.getLast?_cons_cons] at hmeet

/-- A text that keeps those before and behind it apart. -/
structure Separates (sep : List Char) : Prop where
  fits : FitsLine sep
  ne_nil : sep ≠ []
  head : sep.head? ≠ some '/'
  last : sep.getLast? ≠ some '*'

instance (sep : List Char) : Decidable (Separates sep) :=
  decidable_of_iff (FitsLine sep ∧ sep ≠ [] ∧ sep.head? ≠ some '/' ∧ sep.getLast? ≠ some '*')
    ⟨fun h => ⟨h.1, h.2.1, h.2.2.1, h.2.2.2⟩, fun h => ⟨h.fits, h.ne_nil, h.head, h.last⟩⟩

namespace FitsLine

theorem nil : FitsLine [] := by decide

theorem of_isInfix (h : FitsLine b) (hin : a <:+: b) : FitsLine a where
  oneLine hmem := h.oneLine (hin.subset hmem)
  unclosed hclosed := h.unclosed (hclosed.trans hin)

theorem append (ha : FitsLine a) (hb : FitsLine b)
    (hmeet : a.getLast? ≠ some '*' ∨ b.head? ≠ some '/') : FitsLine (a ++ b) where
  oneLine := by
    rw [List.mem_append, not_or]
    exact ⟨ha.oneLine, hb.oneLine⟩
  unclosed := not_blockEnd_infix_append ha.unclosed hb.unclosed hmeet

theorem before (ha : FitsLine a) (hsep : Separates sep) : FitsLine (a ++ sep) :=
  ha.append hsep.fits (.inr hsep.head)

theorem behind (hb : FitsLine b) (hsep : Separates sep) : FitsLine (sep ++ b) :=
  hsep.fits.append hb (.inl hsep.last)

theorem between (ha : FitsLine a) (hb : FitsLine b) (hsep : Separates sep) : FitsLine (a ++ sep ++ b) := by
  refine (ha.before hsep).append hb (.inl ?_)
  rw [List.getLast?_append_of_ne_nil _ hsep.ne_nil]
  exact hsep.last

theorem join (hls : ∀ l ∈ ls, FitsLine l) (hsep : Separates sep) : FitsLine (Text.join sep ls) := by
  induction ls with
  | nil => exact nil
  | cons l ls ih =>
    have hl := hls l List.mem_cons_self
    cases ls with
    | nil => exact hl
    | cons next ls =>
      rw [Text.join_cons_of_ne_nil _ _ (List.cons_ne_nil next ls)]
      exact hl.between (ih fun l' hl' => hls l' (List.mem_cons_of_mem l hl')) hsep

theorem trim (h : FitsLine cs) : FitsLine (trim cs) :=
  h.of_isInfix (Text.trim_infix cs)

end FitsLine

/-- A text that is not there fits. -/
theorem fits_none : ∀ text ∈ (none : Option String), FitsLine text.toList := by
  rintro text ⟨⟩

theorem fits_some {text : String} (h : FitsLine text.toList) :
    ∀ other ∈ some text, FitsLine other.toList := by
  rintro _ ⟨⟩
  exact h

theorem Text.toList_joinStrings (sep : String) (pieces : List String) :
    (Text.joinStrings sep pieces).toList = Text.join sep.toList (pieces.map String.toList) := by
  induction pieces with
  | nil => rfl
  | cons piece pieces ih =>
    cases pieces with
    | nil => rfl
    | cons next pieces =>
      rw [joinStrings, String.toList_append, String.toList_append, ih]
      rfl

theorem fits_joinStrings {sep : String} {pieces : List String}
    (h : ∀ piece ∈ pieces, FitsLine piece.toList) (hsep : Separates sep.toList) :
    FitsLine (Text.joinStrings sep pieces).toList := by
  rw [Text.toList_joinStrings]
  refine FitsLine.join (fun l hl => ?_) hsep
  obtain ⟨piece, hpiece, rfl⟩ := List.mem_map.1 hl
  exact h piece hpiece

/-! ## Blocks -/

/-- A line between the first and the last one of a block. -/
structure BodyLine (line : List Char) : Prop extends FitsLine line where
  margin : [' ', '*'] <+: line

/-- A block: `/**`, lines behind margins, and ` */`; the end of a block stands on the last line only. -/
def IsBlock (text : List Char) : Prop :=
  ∃ body : List (List Char), (∀ line ∈ body, BodyLine line) ∧
    text = Text.join ['\n'] ("/**".toList :: (body ++ [" */".toList]))

/-- Blocks with one empty line between each two. -/
def IsBlocks (text : List Char) : Prop :=
  ∃ blocks : List (List Char), (∀ block ∈ blocks, IsBlock block) ∧
    text = Text.join "\n\n".toList blocks

/-- A line of a block opens it, closes it or stands between. -/
theorem IsBlock.line (h : IsBlock cs) {line : List Char} (hline : line ∈ Text.splitOn '\n' cs) :
    line = "/**".toList ∨ line = " */".toList ∨ BodyLine line := by
  obtain ⟨body, hbody, rfl⟩ := h
  rw [Text.splitOn_join ?_ (List.cons_ne_nil _ _)] at hline
  · rcases List.mem_cons.1 hline with rfl | hline
    · exact .inl rfl
    · rcases List.mem_append.1 hline with hline | hline
      · exact .inr (.inr (hbody line hline))
      · exact .inr (.inl (List.mem_singleton.1 hline))
  · intro l hl
    rcases List.mem_cons.1 hl with rfl | hl
    · decide
    · rcases List.mem_append.1 hl with hl | hl
      · exact (hbody l hl).oneLine
      · rw [List.mem_singleton.1 hl]
        decide

/-- A line of several blocks is empty or a line of one of them. -/
theorem IsBlocks.line (h : IsBlocks cs) {line : List Char} (hline : line ∈ Text.splitOn '\n' cs) :
    line = [] ∨ line = "/**".toList ∨ line = " */".toList ∨ BodyLine line := by
  obtain ⟨blocks, hblocks, rfl⟩ := h
  induction blocks with
  | nil => exact .inl (List.mem_singleton.1 hline)
  | cons block blocks ih =>
    have hblock := hblocks block List.mem_cons_self
    cases blocks with
    | nil => exact .inr (hblock.line hline)
    | cons next blocks =>
      -- The two line feeds between blocks enclose an empty line.
      have htwo : Text.join "\n\n".toList (block :: next :: blocks) =
          block ++ '\n' :: ([] ++ '\n' :: Text.join "\n\n".toList (next :: blocks)) := by
        rw [Text.join_cons_of_ne_nil _ _ (List.cons_ne_nil next blocks), List.append_assoc]
        rfl
      rw [htwo, Text.splitOn_append_cons, Text.splitOn_append_cons, List.mem_append,
        List.mem_append] at hline
      rcases hline with hline | hline | hline
      · exact .inr (hblock.line hline)
      · exact .inl (List.mem_singleton.1 hline)
      · exact ih (fun other hother => hblocks other (List.mem_cons_of_mem block hother)) hline

theorem bodyLine_gutter {line : List Char} (h : FitsLine line) : BodyLine (Comment.gutter line) where
  oneLine := Comment.newline_not_mem_gutter h.oneLine
  unclosed := Comment.gutter_unclosed h.unclosed
  margin := by
    rw [Comment.gutter]
    split
    · exact List.prefix_rfl
    · exact List.prefix_append [' ', '*'] _

theorem Comment.continuation_eq_gutter (line : List Char) :
    Comment.continuation line = '\n' :: Comment.gutter (trimEnd line) := by
  rw [Comment.continuation, Comment.gutter]
  split <;> rfl

/-- The lines of a text without an end of a block become lines of a block. -/
theorem exists_body_continuation (h : ∀ line ∈ ls, FitsLine line) :
    ∃ body : List (List Char), (∀ line ∈ body, BodyLine line) ∧
      ls.flatMap Comment.continuation = body.flatMap ('\n' :: ·) := by
  refine ⟨ls.map fun line => Comment.gutter (trimEnd line), ?_, ?_⟩
  · intro line hline
    obtain ⟨l, hl, rfl⟩ := List.mem_map.1 hline
    exact bodyLine_gutter ((h l hl).of_isInfix (Text.trimEnd_prefix l).isInfix)
  · rw [List.flatMap_map]
    exact List.flatMap_congr fun line _ => Comment.continuation_eq_gutter line

theorem fitsLine_of_mem_lines (h : ¬ blockEnd <:+: cs) {line : List Char} (hline : line ∈ Text.lines cs) :
    FitsLine line where
  oneLine := Text.newline_not_mem_of_mem_lines hline
  unclosed hclosed := h (hclosed.trans (Text.infix_of_mem_lines hline))

/-! ## Comments that fit -/

/-- A tag whose texts fit: all but the description stand on one line. -/
structure Tag.Fits (tag : Tag) : Prop where
  kind : FitsLine tag.kind.toList
  name : ∀ name ∈ tag.name, FitsLine name.toList
  type : ∀ type ∈ tag.type, FitsLine type.toList
  description : ∀ d ∈ tag.description, ¬ blockEnd <:+: d.toList

/-- A comment whose texts fit. -/
structure Comment.Fits (c : Comment) : Prop where
  description : ∀ d ∈ c.description, ¬ blockEnd <:+: d.toList
  tags : ∀ tag ∈ c.tags, tag.Fits

/-- What stands on the line of a tag before its description. -/
def Tag.headText (tag : Tag) : List Char :=
  " * @".toList ++ tag.kind.toList ++
    (tag.type.elim [] fun type => " \x7b".toList ++ type.toList ++ "\x7d".toList) ++
    (tag.name.elim [] fun name => if name.isEmpty then [] else ' ' :: name.toList)

theorem Tag.headText_margin (tag : Tag) : [' ', '*'] <+: tag.headText := by
  have hmargin : [' ', '*'] <+: " * @".toList := by decide
  have hkind := hmargin.trans (List.prefix_append _ tag.kind.toList)
  exact (hkind.trans (List.prefix_append _ _)).trans (List.prefix_append _ _)

theorem Tag.Fits.headText {tag : Tag} (h : tag.Fits) : FitsLine tag.headText := by
  have hkind : FitsLine (" * @".toList ++ tag.kind.toList) := h.kind.behind (by decide)
  have htype : FitsLine (" * @".toList ++ tag.kind.toList ++
      (tag.type.elim [] fun type => " \x7b".toList ++ type.toList ++ "\x7d".toList)) := by
    cases htype : tag.type with
    | none =>
      rw [Option.elim_none, List.append_nil]
      exact hkind
    | some type =>
      rw [Option.elim_some, List.append_assoc _ type.toList, ← List.append_assoc]
      exact hkind.between ((h.type type htype).before (by decide)) (by decide)
  unfold Tag.headText
  cases hname : tag.name with
  | none =>
    rw [Option.elim_none, List.append_nil]
    exact htype
  | some name =>
    rw [Option.elim_some]
    split
    · rw [List.append_nil]
      exact htype
    · rw [← List.singleton_append, ← List.append_assoc]
      exact htype.between (h.name name hname) (by decide)

/-- The description of a tag goes on behind the tag and then on lines of its own. -/
theorem Tag.exists_body_renderDescription {description : List Char} (h : ¬ blockEnd <:+: description) :
    ∃ (first : List Char) (body : List (List Char)), FitsLine first ∧ first.head? ≠ some '/' ∧
      (∀ line ∈ body, BodyLine line) ∧
      Tag.renderDescription description = first ++ body.flatMap ('\n' :: ·) := by
  have hlines : ∀ line ∈ Text.lines description, FitsLine line := fun _ => fitsLine_of_mem_lines h
  rw [Tag.renderDescription]
  cases hsplit : Text.lines description with
  | nil => exact ⟨[], [], FitsLine.nil, by simp, fun _ hmem => absurd hmem List.not_mem_nil, rfl⟩
  | cons first others =>
    rw [hsplit] at hlines
    obtain ⟨body, hbody, heq⟩ :=
      exists_body_continuation fun line hline => hlines line (List.mem_cons_of_mem first hline)
    have hfirst := (hlines first List.mem_cons_self).trim
    refine ⟨if (trim first).isEmpty then [] else ' ' :: trim first, body, ?_, ?_, hbody, ?_⟩
    · split
      · exact FitsLine.nil
      · have hblank : Separates [' '] := by decide
        exact hfirst.behind hblank
    · split <;> simp
    · rw [← heq]

theorem Tag.Fits.exists_body {tag : Tag} (h : tag.Fits) :
    ∃ body : List (List Char), (∀ line ∈ body, BodyLine line) ∧
      '\n' :: tag.render = body.flatMap ('\n' :: ·) := by
  obtain ⟨first, body, hfirst, hhead, hbody, heq⟩ : ∃ (first : List Char) (body : List (List Char)),
      FitsLine first ∧ first.head? ≠ some '/' ∧ (∀ line ∈ body, BodyLine line) ∧
      (tag.description.elim [] fun d => Tag.renderDescription d.toList) =
        first ++ body.flatMap ('\n' :: ·) := by
    cases hd : tag.description with
    | none => exact ⟨[], [], FitsLine.nil, by simp, fun _ hmem => absurd hmem List.not_mem_nil, rfl⟩
    | some d => exact Tag.exists_body_renderDescription (h.description d hd)
  have hrender : tag.render = tag.headText ++ (first ++ body.flatMap ('\n' :: ·)) := by
    rw [← heq]
    rfl
  refine ⟨(tag.headText ++ first) :: body, ?_, ?_⟩
  · intro line hline
    rcases List.mem_cons.1 hline with rfl | hline
    · exact ⟨h.headText.append hfirst (.inr hhead), tag.headText_margin.trans (List.prefix_append _ _)⟩
    · exact hbody line hline
  · rw [hrender, List.flatMap_cons, ← List.append_assoc, List.cons_append]

theorem exists_body_tags {tags : List Tag} (h : ∀ tag ∈ tags, tag.Fits) :
    ∃ body : List (List Char), (∀ line ∈ body, BodyLine line) ∧
      tags.flatMap (fun tag => '\n' :: tag.render) = body.flatMap ('\n' :: ·) := by
  induction tags with
  | nil => exact ⟨[], fun _ hmem => absurd hmem List.not_mem_nil, rfl⟩
  | cons tag tags ih =>
    obtain ⟨first, hfirst, hfirst_eq⟩ := (h tag List.mem_cons_self).exists_body
    obtain ⟨rest, hrest, hrest_eq⟩ := ih fun t ht => h t (List.mem_cons_of_mem tag ht)
    refine ⟨first ++ rest, ?_, ?_⟩
    · intro line hline
      rcases List.mem_append.1 hline with hline | hline
      · exact hfirst line hline
      · exact hrest line hline
    · rw [List.flatMap_cons, List.flatMap_append, hfirst_eq, hrest_eq]

/-- A comment that fits and is not empty is written as a block. -/
theorem Comment.Fits.isBlock_render {c : Comment} (h : c.Fits) (hne : c.isEmpty = false) :
    IsBlock c.render := by
  obtain ⟨prose, hprose, hprose_eq⟩ : ∃ body : List (List Char), (∀ line ∈ body, BodyLine line) ∧
      (c.description.elim [] fun d => (Text.lines (trim d.toList)).flatMap continuation) =
        body.flatMap ('\n' :: ·) := by
    cases hd : c.description with
    | none => exact ⟨[], fun _ hmem => absurd hmem List.not_mem_nil, rfl⟩
    | some d =>
      have hlines : ∀ line ∈ Text.lines (trim d.toList), FitsLine line := fun line =>
        fitsLine_of_mem_lines fun hclosed => h.description d hd (hclosed.trans (Text.trim_infix _))
      exact exists_body_continuation hlines
  obtain ⟨tags, htags, htags_eq⟩ := exists_body_tags h.tags
  refine ⟨prose ++ tags, ?_, ?_⟩
  · intro line hline
    rcases List.mem_append.1 hline with hline | hline
    · exact hprose line hline
    · exact htags line hline
  · rw [Text.join_cons_eq_flatMap, List.flatMap_append, List.flatMap_append, render, hne, hprose_eq,
      htags_eq]
    simp

/-! ## Collections that fit -/

namespace Collection

/-- Blocks hold no blank line and do not start with a line feed. -/
theorem gapless_of_isBlock (h : IsBlock cs) : Gapless cs ∧ cs ≠ [] ∧ cs.head? ≠ some '\n' := by
  obtain ⟨body, hbody, rfl⟩ := h
  refine ⟨gapless_join (List.cons_ne_nil _ _) ?_, ?_, ?_⟩
  · intro l hl
    rcases List.mem_cons.1 hl with rfl | hl
    · decide
    · rcases List.mem_append.1 hl with hl | hl
      · obtain ⟨rest, rfl⟩ := (hbody l hl).margin
        exact ⟨by simp, (hbody _ hl).oneLine⟩
      · rw [List.mem_singleton.1 hl]
        decide
  · rw [Text.join_cons_eq_flatMap]
    simp
  · rw [Text.join_cons_eq_flatMap]
    simp

/-- Between blocks there is nothing to collapse. -/
theorem isBlocks_render (cs : Collection) (h : ∀ c ∈ cs.entries, c.Fits) : IsBlocks cs.render := by
  have hblocks : ∀ block ∈ cs.written.map Comment.render, IsBlock block := by
    intro block hblock
    obtain ⟨c, hc, rfl⟩ := List.mem_map.1 hblock
    obtain ⟨hmem, hne⟩ := List.mem_filter.1 hc
    exact (h c hmem).isBlock_render (by simpa using hne)
  refine ⟨cs.written.map Comment.render, hblocks, ?_⟩
  rw [render_eq_join]
  exact collapseGaps_join fun block hblock => gapless_of_isBlock (hblocks block hblock)

end Collection

/-! ## Reading -/

namespace Comment

variable {header : List Char} {others : List (List Char)}

theorem Legible.fitsLine {line : List Char} (h : Legible line) : FitsLine line :=
  ⟨h.oneLine, h.unclosed⟩

theorem not_blockEnd_infix_join (h : ∀ line ∈ ls, ¬ blockEnd <:+: line) :
    ¬ blockEnd <:+: Text.join ['\n'] ls := by
  intro hin
  by_cases hne : ls = []
  · rw [hne] at hin
    exact absurd hin (by decide)
  · obtain ⟨line, hline, hclosed⟩ := Text.exists_infix_of_infix_join (by decide) hne hin
    exact h line hline hclosed

theorem fits_readTag (hheader : FitsLine header) (hothers : ∀ line ∈ others, ¬ blockEnd <:+: line) :
    (readTag header others).Fits := by
  obtain ⟨tag, afterKind, behind, rest, hread, hkind, htype, hname, -, hdescription⟩ :=
    Tag.exists_takeWord_readTag header others
  obtain ⟨hheader_eq, -, -⟩ := takeWord_spec hkind
  obtain ⟨hbehind_eq, -, -⟩ := takeWord_spec hname
  have hafter : FitsLine (trimStart afterKind) := by
    refine hheader.of_isInfix ?_
    rw [hheader_eq]
    exact (Text.trimStart_suffix afterKind).isInfix.trans (List.suffix_append _ _).isInfix
  have hbehind : FitsLine behind := hafter.of_isInfix (takeType_suffix htype).isInfix
  rw [hread]
  refine ⟨?_, ?_, ?_, ?_⟩
  · refine hheader.of_isInfix ?_
    rw [hheader_eq]
    exact (List.prefix_append _ _).isInfix
  · intro name hmem
    rw [hbehind_eq, Option.mem_def.1 hmem] at hbehind
    exact hbehind.of_isInfix (List.prefix_append _ _).isInfix
  · intro type hmem
    rcases takeType_cases htype with ⟨hnone, -⟩ | ⟨inside, after, hsome, hopen, -⟩
    · rw [Option.mem_def.1 hmem] at hnone
      cases hnone
    · rw [Option.mem_def.1 hmem] at hsome
      rw [Option.some.inj hsome, String.toList_ofList]
      rw [hopen] at hafter
      exact hafter.of_isInfix ⟨['\x7b'], '\x7d' :: after, by simp⟩
  · intro d hd
    rw [hdescription, tagDescription?] at hd
    split at hd
    · cases hd
    · rw [← Option.some.inj hd, String.toList_ofList]
      intro hclosed
      refine not_blockEnd_infix_join ?_ (hclosed.trans (Text.trimEnd_prefix _).isInfix)
      intro line hline
      rcases List.mem_cons.1 hline with rfl | hline
      · rw [hbehind_eq] at hbehind
        exact (hbehind.of_isInfix (List.suffix_append _ _).isInfix).trim.unclosed
      · exact hothers line hline

/-- What is read from a hand-written comment fits. -/
theorem fits_read (raw : List Char) : (read raw).Fits := by
  rw [read]
  cases hcontent : blockContent? raw with
  | none => exact ⟨fun _ hd => absurd hd (by simp [empty]), fun _ htag => absurd htag List.not_mem_nil⟩
  | some content =>
    have hlegible : ∀ line ∈ contentLines content, Legible line :=
      fun line => legible_of_mem_contentLines (blockContent?_unclosed hcontent)
    obtain ⟨hprose, htags⟩ := sections_spec (contentLines content)
    refine ⟨?_, ?_⟩
    · intro d hd
      simp only [ofLines, Option.mem_def] at hd
      split at hd
      · cases hd
      · rw [← Option.some.inj hd, String.toList_ofList]
        intro hclosed
        refine not_blockEnd_infix_join ?_ (hclosed.trans (Text.trim_infix _))
        exact fun line hline => (hlegible line (hprose line hline).1).unclosed
    · intro tag htag
      obtain ⟨⟨header, others⟩, hmem, rfl⟩ := List.mem_map.1 htag
      obtain ⟨⟨line, hline, hheader⟩, hothers⟩ := htags header others hmem
      obtain ⟨hstart, -⟩ := tagHeader?_spec hheader
      refine fits_readTag ?_ fun other hother => (hlegible other (hothers other hother).1).unclosed
      refine (hlegible line hline).fitsLine.of_isInfix ?_
      have hsuffix := Text.trimStart_suffix line
      rw [hstart] at hsuffix
      exact (List.suffix_cons '@' header).isInfix.trans hsuffix.isInfix

end Comment

/-! ## Writing tags -/

theorem forall_mem_modify {α : Type} {P : α → Prop} {xs : List α} {f : α → α} (h : ∀ x ∈ xs, P x)
    (hf : ∀ x, P x → P (f x)) (i : Nat) : ∀ x ∈ xs.modify i f, P x := by
  intro x hx
  obtain ⟨j, hj⟩ := List.mem_iff_getElem?.1 hx
  rw [List.getElem?_modify] at hj
  split at hj
  · obtain ⟨old, hold, rfl⟩ := Option.map_eq_some_iff.1 hj
    exact hf old (h old (List.mem_of_getElem? hold))
  · exact h x (List.mem_of_getElem? (by simpa using hj))

namespace Comment

variable {c source target : Comment} {kind : String} {name : Option String} {f : Tag → Tag}

theorem fits_empty : empty.Fits :=
  ⟨fun _ hd => absurd hd (by simp [empty]), fun _ htag => absurd htag List.not_mem_nil⟩

theorem Fits.append (h : c.Fits) {tag : Tag} (htag : tag.Fits) : (c.append tag).Fits := by
  refine ⟨h.description, ?_⟩
  intro other hother
  rcases List.mem_append.1 hother with hother | hother
  · exact h.tags other hother
  · rw [List.mem_singleton.1 hother]
    exact htag

theorem Fits.modifyAt (h : c.Fits) (hf : ∀ tag, tag.Fits → (f tag).Fits) (i : Nat) :
    (c.modifyAt i f).Fits :=
  ⟨h.description, forall_mem_modify h.tags hf i⟩

theorem fits_named (hkind : FitsLine kind.toList) (hname : ∀ n ∈ name, FitsLine n.toList) :
    (Tag.named kind name).Fits :=
  ⟨hkind, hname, fun _ htype => absurd htype (by simp [Tag.named]),
    fun _ hd => absurd hd (by simp [Tag.named])⟩

theorem Fits.put (h : c.Fits) (hkind : FitsLine kind.toList) (hname : ∀ n ∈ name, FitsLine n.toList)
    (hf : ∀ tag, tag.Fits → (f tag).Fits) : (c.put kind name f).Fits := by
  cases hposition : c.position? kind name with
  | some i =>
    rw [Comment.put, Comment.obtain, hposition]
    exact h.modifyAt hf i
  | none =>
    rw [Comment.put, Comment.obtain, hposition]
    exact (h.append (fits_named hkind hname)).modifyAt hf _

theorem Fits.putParam (h : c.Fits) {name : String} (hname : FitsLine name.toList)
    {repeatable optional : Bool} (hf : ∀ tag, tag.Fits → (f tag).Fits) :
    (c.putParam name repeatable optional f).Fits := by
  cases hposition : c.paramPosition? name repeatable optional with
  | some i =>
    rw [Comment.putParam, Comment.obtainParam, hposition]
    exact h.modifyAt hf i
  | none =>
    rw [Comment.putParam, Comment.obtainParam, hposition]
    exact (h.append (fits_named (by decide) (fits_some hname))).modifyAt hf _

theorem fits_overwrite {tag other : Tag} (htag : tag.Fits) (hother : other.Fits) :
    (overwrite tag other).Fits := by
  refine ⟨hother.kind, hother.name, ?_, ?_⟩
  · intro type htype
    rcases Option.or_eq_some_iff.1 htype with hfirst | ⟨-, hsecond⟩
    · exact htag.type type hfirst
    · exact hother.type type hsecond
  · intro d hd
    rcases Option.or_eq_some_iff.1 hd with hfirst | ⟨-, hsecond⟩
    · exact htag.description d hfirst
    · exact hother.description d hsecond

theorem not_blockEnd_mergeDescription {into other : Option String}
    (hinto : ∀ d ∈ into, ¬ blockEnd <:+: d.toList) (hother : ∀ d ∈ other, ¬ blockEnd <:+: d.toList) :
    ∀ d ∈ mergeDescription into other, ¬ blockEnd <:+: d.toList := by
  intro d hd
  cases other with
  | none => exact hinto d hd
  | some text =>
    simp only [mergeDescription, Option.mem_def] at hd
    split at hd
    · exact hinto d hd
    · cases into with
      | none => exact hother d hd
      | some existing =>
        dsimp only at hd
        split at hd
        · exact hother d hd
        · rw [← Option.some.inj hd, String.toList_append, String.toList_append]
          refine not_blockEnd_infix_append ?_ (hother text rfl) (.inl ?_)
          · exact not_blockEnd_infix_append (hinto existing rfl) (by decide) (.inr (by decide))
          · rw [List.getLast?_append_of_ne_nil _ (by decide)]
            decide

/-- Merging comments that fit gives one that fits. -/
theorem Fits.mergeInto (hsource : source.Fits) (htarget : target.Fits) :
    (source.mergeInto target).Fits := by
  have hfold : ∀ (tags : List Tag) (c : Comment), (∀ tag ∈ tags, tag.Fits) → c.Fits →
      (tags.foldl (fun c tag => c.put tag.kind tag.name (Comment.overwrite tag)) c).Fits := by
    intro tags
    induction tags with
    | nil => exact fun c _ hc => hc
    | cons tag tags ih =>
      intro c htags hc
      have htag := htags tag List.mem_cons_self
      refine ih _ (fun t ht => htags t (List.mem_cons_of_mem tag ht)) ?_
      exact hc.put htag.kind htag.name fun other hother => fits_overwrite htag hother
  refine hfold source.tags _ hsource.tags ⟨?_, htarget.tags⟩
  exact not_blockEnd_mergeDescription htarget.description hsource.description

end Comment

end DocBlock
