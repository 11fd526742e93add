import DocBlock.Proofs.Comment.Stable

/-! # What reading keeps

Reading a block takes its margins and white space away and nothing else: without blanks, the lines of
the block are what stands in the description and the tags of the comment, in this order
(`solid_content_ofString`). Each step of reading is shown to keep what is no blank: cutting a line
(`solid_splitInlineTags`), telling the lines of the tags apart (`solid_sections`) and taking a tag apart
(`solid_content_readTag`). -/

namespace DocBlock

/-! ## Texts without blanks -/

namespace Text

variable {cs : List Char} {ls : List (List Char)}

/-- A text without its blanks. -/
def solid (cs : List Char) : List Char :=
  cs.filter fun c => !isBlank c

@[simp] theorem solid_append (a b : List Char) : solid (a ++ b) = solid a ++ solid b :=
  List.filter_append a b

theorem solid_cons_of_solid {c : Char} (h : isBlank c = false) (cs : List Char) :
    solid (c :: cs) = c :: solid cs :=
  List.filter_cons_of_pos (by rw [h]; rfl)

theorem solid_eq_nil_iff : solid cs = [] ↔ ∀ c ∈ cs, isBlank c = true := by
  simp [solid, List.filter_eq_nil_iff]

theorem solid_flatMap {α : Type} (xs : List α) (f : α → List Char) :
    solid (xs.flatMap f) = xs.flatMap fun x => solid (f x) :=
  List.filter_flatMap

theorem solid_flatten (ls : List (List Char)) : solid ls.flatten = ls.flatMap solid := by
  rw [List.flatten_eq_flatMap, solid_flatMap]
  rfl

@[simp] theorem solid_trimStart (cs : List Char) : solid (trimStart cs) = solid cs := by
  obtain ⟨w, hw, hcs⟩ := exists_blanks_append_trimStart cs
  conv_rhs => rw [hcs, solid_append, solid_eq_nil_iff.2 hw, List.nil_append]

@[simp] theorem solid_trimEnd (cs : List Char) : solid (trimEnd cs) = solid cs := by
  obtain ⟨w, hw, hcs⟩ := exists_trimEnd_append_blanks cs
  conv_rhs => rw [hcs, solid_append, solid_eq_nil_iff.2 hw, List.append_nil]

@[simp] theorem solid_trim (cs : List Char) : solid (trim cs) = solid cs := by
  rw [trim, solid_trimEnd, solid_trimStart]

/-- The line feeds between joined lines are blanks. -/
theorem solid_join (ls : List (List Char)) : solid (join ['\n'] ls) = ls.flatMap solid := by
  cases ls with
  | nil => rfl
  | cons l ls =>
    have hline : ∀ line : List Char, solid ('\n' :: line) = solid line := fun _ => rfl
    rw [join_cons_eq_flatMap, solid_append, solid_flatMap, List.flatMap_cons]
    simp only [hline]

end Text

/-! ## The text of a comment -/

/-- The type of a tag between braces. -/
def braced (type : Option String) : List Char :=
  type.elim [] fun type => '\x7b' :: type.toList ++ ['\x7d']

/-- The text of a tag without the white space between its parts. -/
def Tag.content (tag : Tag) : List Char :=
  '@' :: tag.kind.toList ++ braced tag.type ++ tag.name.elim [] String.toList ++
    tag.description.elim [] String.toList

namespace Comment

open Text (solid)

/-- The text of a comment without the white space between its parts. -/
def content (c : Comment) : List Char :=
  c.description.elim [] String.toList ++ c.tags.flatMap Tag.content

variable {cs header line word rest : List Char} {type : Option String}

/-! ## Lines -/

theorem solid_trimPieces (ls : List (List Char)) : (trimPieces ls).flatMap solid = ls.flatMap solid := by
  fun_induction trimPieces ls with
  | case1 => rfl
  | case2 last => rfl
  | case3 piece next pieces ih => rw [List.flatMap_cons, List.flatMap_cons, Text.solid_trimEnd, ih]

/-- Cutting a line before the tags in its middle loses blanks only. -/
theorem solid_splitInlineTags (line : List Char) :
    (splitInlineTags line).flatMap solid = solid line := by
  rw [splitInlineTags, solid_trimPieces, ← Text.solid_flatten, flatten_cutTags]

theorem solid_contentLines (content : List Char) :
    (contentLines content).flatMap solid = solid ((Text.lines content).flatMap dropMargin) := by
  rw [contentLines, List.flatMap_assoc, Text.solid_flatMap]
  simp only [solid_splitInlineTags]

/-! ## Tags -/

/-- A line that opens a tag is the header of the tag behind an `@`. -/
theorem solid_of_tagHeader? (h : tagHeader? line = some header) :
    solid line = '@' :: solid header := by
  rw [← Text.solid_trimStart, (tagHeader?_spec h).1]
  exact Text.solid_cons_of_solid (by decide) header

/-- The lines before the first tag and the lines of the tags are all lines, in order. -/
theorem solid_sections (ls : List (List Char)) :
    (sections ls).1.flatMap solid ++
        ((sections ls).2.flatMap fun (header, others) => '@' :: solid header ++ others.flatMap solid) =
      ls.flatMap solid := by
  induction ls with
  | nil => rfl
  | cons line ls ih =>
    rw [List.flatMap_cons, ← ih, sections]
    cases hheader : tagHeader? line with
    | none => simp
    | some header => simp [solid_of_tagHeader? hheader]

theorem solid_of_takeWord (h : takeWord cs = (word, rest)) : solid cs = solid word ++ solid rest := by
  rw [(takeWord_spec h).1, Text.solid_append]

/-- The type at the start of a text stands between its braces. -/
theorem solid_of_takeType (h : takeType cs = (type, rest)) :
    solid cs = solid (braced type) ++ solid rest := by
  unfold takeType at h
  split at h
  · rename_i behind
    split at h
    · rename_i inside behind' hclose
      obtain ⟨rfl, rfl⟩ := Prod.mk.inj h
      have hgroup : '\x7b' :: behind = braced (some (String.ofList inside)) ++ behind' := by
        rw [(closeBrace?_spec hclose).1]
        simp [braced]
      rw [hgroup, Text.solid_append, Text.solid_trimStart]
    · obtain ⟨rfl, rfl⟩ := Prod.mk.inj h
      rfl
  · obtain ⟨rfl, rfl⟩ := Prod.mk.inj h
    rfl

/-- An empty word is no name. -/
theorem elim_name (word : List Char) :
    (if word.isEmpty then none else some (String.ofList word)).elim [] String.toList = word := by
  cases word <;> simp

/-- A description is left out only when it is blank. -/
theorem solid_tagDescription? (first : List Char) (others : List (List Char)) :
    solid ((tagDescription? first others).elim [] String.toList) =
      solid first ++ others.flatMap solid := by
  rw [← List.flatMap_cons, ← Text.solid_join, ← Text.solid_trimEnd (Text.join _ _)]
  unfold tagDescription?
  by_cases hblank : Text.isAllBlank (Text.trimEnd (Text.join ['\n'] (first :: others))) = true
  · simp only [hblank, if_true]
    exact (Text.solid_eq_nil_iff.2 (Text.isAllBlank_iff.1 hblank)).symm
  · simp [hblank]

theorem solid_content_readTag (header : List Char) (others : List (List Char)) :
    solid (readTag header others).content = '@' :: solid header ++ others.flatMap solid := by
  cases hkind : takeWord header with
  | mk kind behindKind =>
    cases htype : takeType (Text.trimStart behindKind) with
    | mk type behindType =>
      cases hname : takeWord behindType with
      | mk name behindName =>
        have htag : readTag header others =
            { kind := String.ofList kind
              name := if name.isEmpty then none else some (String.ofList name)
              type
              description := tagDescription? (Text.trim behindName) others } := by
          simp only [readTag, hkind, htype, hname]
        have hat : ∀ cs, solid ('@' :: cs) = '@' :: solid cs := Text.solid_cons_of_solid (by decide)
        have hheader : solid header =
            solid kind ++ (solid (braced type) ++ (solid name ++ solid behindName)) := by
          rw [solid_of_takeWord hkind, ← Text.solid_trimStart behindKind, solid_of_takeType htype,
            solid_of_takeWord hname]
        rw [htag, hheader, Tag.content]
        simp only [Text.solid_append, hat, elim_name, solid_tagDescription?, Text.solid_trim,
          String.toList_ofList, List.cons_append, List.append_assoc]

/-! ## Comments -/

theorem solid_content_ofLines (ls : List (List Char)) :
    solid (ofLines ls).content = ls.flatMap solid := by
  rw [Comment.content, ofLines, ← solid_sections]
  simp only [Text.solid_append, elim_name, Text.solid_trim, Text.solid_join, Text.solid_flatMap,
    List.flatMap_map, solid_content_readTag]

/-- Reading loses no text. Without white space, the lines of the block behind their margins are the
description followed by the tags of the comment that is read. -/
theorem solid_content_ofString (raw : String) {content : List Char}
    (h : blockContent? raw.toList = some content) :
    solid ((Text.lines content).flatMap dropMargin) = solid (ofString raw).content := by
  rw [ofString, read, h]
  exact ((solid_content_ofLines _).trans (solid_contentLines content)).symm

theorem solid_content_ofString_crowdedBlock :
    let content :=
      "* one\u2003@two \x7bA\x7d  \x7b b\r\n  c \x7d @three\x7b \x7bx\x7d\x7d@ y\n\t** @four \x7bB@in x \n\n e  ".toList
    blockContent? crowdedBlock.toList = some content ∧
      solid ((Text.lines content).flatMap dropMargin) = solid (ofString crowdedBlock).content ∧
      solid (ofString crowdedBlock).content =
        "one@two\x7bA\x7d\x7bbc\x7d@three\x7b\x7bx\x7d\x7d@y*@four\x7bB@inxe".toList := by
  intro content
  have hcontent : blockContent? crowdedBlock.toList = some content := by decide +kernel
  exact ⟨hcontent, solid_content_ofString crowdedBlock hcontent, by decide +kernel⟩

end Comment

end DocBlock
