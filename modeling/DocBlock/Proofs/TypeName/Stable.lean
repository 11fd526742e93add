import DocBlock.Proofs.TypeName.Linking

/-! # Formatted type names stay as they are

Formatting a formatted type name once more changes nothing (`format_format`), with two exceptions: a
repeat marker can be taken off one more array each time, and a name can lose one more dot each time. A
text that has a shape is formatted as the spelling of a derivation in which arrays are names with an
argument and dots stand before angle brackets only, and such a spelling is its own documentation spelling.
A text without a shape has none with links in it either. -/

namespace DocBlock.TypeName

open Shape (isDelimiter)

variable {p : Part} {c : Char} {cs run w : List Char} {ts us : List Token}

/-! ## Dots before angle brackets -/

/-- Whether each run of a text that is as long as it can be, and that ends in a dot when it is trimmed,
stands before an angle bracket. -/
def DotsOpen (cs : List Char) : Prop :=
  ∀ before run after, cs = before ++ run ++ after → IsRun run →
    (∀ c ∈ before.getLast?, isDelimiter c = true) → (∀ c ∈ after.head?, isDelimiter c = true) →
    (Text.trim run).getLast? = some '.' → after.head? = some '<'

/-- Whether each name that ends in a dot stands before an angle bracket. -/
def NamesOpen : List Token → Prop
  | [] => True
  | .mark _ :: ts => NamesOpen ts
  | .name text :: ts => (text.getLast? = some '.' → ts.head? = some (.mark '<')) ∧ NamesOpen ts

instance decidableNamesOpen : (ts : List Token) → Decidable (NamesOpen ts)
  | [] => .isTrue trivial
  | .mark _ :: ts => decidableNamesOpen ts
  | .name text :: ts =>
    have := decidableNamesOpen ts
    inferInstanceAs (Decidable ((text.getLast? = some '.' → ts.head? = some (.mark '<')) ∧ _))

theorem NamesOpen.of_append (h : NamesOpen (ts ++ us)) : NamesOpen us := by
  induction ts with
  | nil => exact h
  | cons t ts ih =>
    cases t with
    | mark c => exact ih h
    | name text => exact ih h.2

theorem DotsOpen.behind (h : DotsOpen (run ++ c :: cs)) (hc : isDelimiter c = true) : DotsOpen cs := by
  intro before inside after hcs hinside hbefore hafter hdot
  refine h (run ++ c :: before) inside after (by simp [hcs]) hinside (fun d hd => ?_) hafter hdot
  rcases List.eq_nil_or_concat before with hnil | ⟨front, e, hfront⟩
  · rw [hnil, List.getLast?_concat] at hd
    cases hd
    exact hc
  · rw [List.concat_eq_append] at hfront
    rw [hfront, ← List.cons_append, ← List.append_assoc, List.getLast?_concat] at hd
    exact hbefore d (by rw [hfront, List.getLast?_concat]; exact hd)

theorem runTokens_of_dot (hdot : (Text.trim run).getLast? = some '.') :
    runTokens run = [.name (Text.trim run)] := by
  rw [runTokens, if_neg]
  intro hempty
  rw [List.isEmpty_iff.1 hempty] at hdot
  cases hdot

theorem DotsOpen.namesOpen (h : DotsOpen cs) : NamesOpen (tokens cs) := by
  induction cs using runs_induction with
  | last run hrun =>
    rw [tokens_run hrun, runTokens]
    split
    · trivial
    · refine ⟨fun hdot => ?_, trivial⟩
      cases h [] run [] (by simp) hrun (by simp) (by simp) hdot
  | more run c cs hrun hc ih =>
    have hbehind : NamesOpen (.mark c :: tokens cs) := ih (h.behind hc)
    rw [tokens_run_append hrun hc, runTokens]
    split
    · exact hbehind
    · refine ⟨fun hdot => ?_, hbehind⟩
      have hhead := h [] run (c :: cs) (by simp) hrun (by simp) (by simpa using hc) hdot
      rw [Option.some.inj hhead]
      rfl

/-- A delimiter divides the tokens. -/
theorem tokens_append_mark (hc : isDelimiter c = true) (before behind : List Char) :
    tokens (before ++ c :: behind) = tokens before ++ .mark c :: tokens behind := by
  induction before using runs_induction with
  | last run hrun => rw [tokens_run_append hrun hc, tokens_run hrun]
  | more run d cs hrun hd ih =>
    rw [List.append_assoc, List.cons_append, tokens_run_append hrun hd, ih, tokens_run_append hrun hd,
      List.append_assoc, List.cons_append]

theorem DotsOpen.of_namesOpen (h : NamesOpen (tokens cs)) : DotsOpen cs := by
  rintro before run after rfl hrun hbefore hafter hdot
  -- The run stands between delimiters or ends of the text, so its token is its own.
  have hsplit : tokens (before ++ run ++ after) = tokens before ++ (runTokens run ++ tokens after) := by
    rcases List.eq_nil_or_concat before with rfl | ⟨front, d, rfl⟩
    · rw [List.nil_append, tokens_append hrun hafter, tokens_nil, List.nil_append]
    · rw [List.concat_eq_append] at hbefore ⊢
      have hd : isDelimiter d = true := hbefore d List.getLast?_concat
      rw [tokens_append_mark hd, tokens_nil, List.append_assoc, List.append_assoc, List.singleton_append,
        tokens_append_mark hd, tokens_append hrun hafter, List.append_assoc, List.singleton_append]
  rw [hsplit, runTokens_of_dot hdot] at h
  have hopen : (tokens after).head? = some (.mark '<') := h.of_append.1 hdot
  cases after with
  | nil => cases hopen
  | cons d after =>
    rw [tokens_mark (hafter d rfl)] at hopen
    cases hopen
    rfl

instance (cs : List Char) : Decidable (DotsOpen cs) :=
  decidable_of_iff (NamesOpen (tokens cs)) ⟨DotsOpen.of_namesOpen, DotsOpen.namesOpen⟩

/-! ## Proper derivations -/

/-- In a derivation up to where it cannot go on, names without arguments do not end in a dot. -/
theorem Derivation.each_undotted {d : Derivation p} (h : NamesOpen (d.tokens ++ ts))
    (hend : p.EndsAt ts) :
    d.Each (fun w => w.getLast? ≠ some '.') (fun _ => True) fun _ => True := by
  induction d generalizing ts with
  | union first others ihfirst ihothers =>
    rw [tokens, List.append_assoc] at h
    exact ⟨ihfirst h (endsAt_members _ (hend.mono (by decide))),
      ihothers h.of_append (hend.mono (by decide))⟩
  | noMember => trivial
  | member next others ihnext ihothers =>
    rw [tokens, List.cons_append, List.append_assoc] at h
    have hnext : NamesOpen (next.tokens ++ (others.tokens ++ ts)) := h
    exact ⟨ihnext hnext (endsAt_members _ hend), ihothers hnext.of_append hend⟩
  | arrayed primary n ih =>
    rw [tokens, List.append_assoc] at h
    exact ⟨ih h (endsAt_bracketPairs _ hend), trivial⟩
  | parens inner ih =>
    rw [tokens, List.cons_append, List.append_assoc] at h
    exact ih h (Part.endsAt_mark (by decide))
  | name text => exact fun hdot => hend '<' (by decide) (h.1 hdot)
  | applied text first others ihfirst ihothers =>
    rw [tokens, List.cons_append, List.cons_append, List.append_assoc, List.append_assoc] at h
    have harguments : NamesOpen (first.tokens ++ (others.tokens ++ ([.mark '>'] ++ ts))) := h.2
    exact ⟨trivial, ihfirst harguments (endsAt_arguments _ (Part.endsAt_mark (by decide))),
      ihothers harguments.of_append (Part.endsAt_mark (by decide))⟩
  | noArgument => trivial
  | argument next others ihnext ihothers =>
    rw [tokens, List.cons_append, List.append_assoc] at h
    have hnext : NamesOpen (next.tokens ++ (others.tokens ++ ts)) := h
    exact ⟨ihnext hnext (endsAt_arguments _ hend), ihothers hnext.of_append hend⟩

theorem isName_of_mem_tokens (h : .name w ∈ tokens cs) : IsName w := by
  have hname : ∀ run, IsRun run → .name w ∈ runTokens run → IsName w := by
    intro run hrun hmem
    rw [runTokens] at hmem
    split at hmem
    · cases hmem
    · rename_i hblank
      obtain rfl : w = Text.trim run := by simpa using hmem
      exact isName_trim hrun (by simpa using hblank)
  induction cs using runs_induction with
  | last run hrun =>
    rw [tokens_run hrun] at h
    exact hname run hrun h
  | more run c cs hrun hc ih =>
    rw [tokens_run_append hrun hc] at h
    rcases List.mem_append.1 h with h | h
    · exact hname run hrun h
    · exact ih (by simpa using h)

theorem Derivation.proper_of_dotsOpen {d : Derivation .union} (h : d.tokens = TypeName.tokens cs)
    (hdots : DotsOpen cs) : d.Proper := by
  have hopen : NamesOpen (d.tokens ++ []) := by
    rw [List.append_nil, h]
    exact hdots.namesOpen
  have hnames : d.Each IsName IsName fun _ => True := by
    refine d.each_of_mem_tokens fun w hw => ?_
    rw [h] at hw
    exact isName_of_mem_tokens hw
  exact (hnames.and (each_undotted hopen Part.union.endsAt_nil)).mono (fun _ hw => hw)
    (fun _ hw => hw.1) fun _ _ => trivial

/-! ## Formatting once more -/

/-- The documentation spelling of a derivation, with links in it, is formatted as itself. -/
theorem Derivation.Proper.formatChars_linkQueries_doc {d : Derivation .union} (h : d.Proper)
    (hrepeated : ¬ Repeated d.tokens) : formatChars (linkQueries d.doc) = linkQueries d.doc := by
  -- The links rename tokens of a spelling, and the renamed tokens have a derivation that is spelled in
  -- the documentation as in the source.
  obtain ⟨ts, hlinked, hspelling⟩ := exists_linked_spelling d.documented.spelling
  rw [h.documented.tokens_spelling] at hlinked hspelling
  have hbare : ∀ new old, LinkedName new old → IsName old ∧ old.getLast? ≠ some '.' →
      IsName new ∧ new.getLast? ≠ some '.' :=
    fun new old hname hold => ⟨hname.isName, fun hdot => hold.2 (hname.dotted_iff.1 hdot)⟩
  have happlied : ∀ new old, LinkedName new old → IsName old ∧ old.getLast? = some '.' →
      IsName new ∧ new.getLast? = some '.' :=
    fun new old hname hold => ⟨hname.isName, hname.dotted_iff.2 hold.2⟩
  obtain ⟨linked, rfl, heach⟩ := exists_renamed hlinked h.each_documented hbare happlied
  have hproper : linked.Proper := heach.mono (fun _ hw => hw) (fun _ hw => hw.1) fun _ _ => trivial
  have hdoc : linked.doc = linkQueries d.doc := by
    rw [doc_eq_spelling (heach.mono (fun _ hw => hw.2) (fun _ hw => hw.2) fun _ hn => hn),
      h.doc_eq_spelling_documented]
    exact hspelling.symm
  have htokens : TypeName.tokens (linkQueries d.doc) = linked.tokens := by
    rw [h.doc_eq_spelling_documented]
    exact (congrArg TypeName.tokens hspelling).trans hproper.tokens_spelling
  have hunmarked : ¬ Repeated linked.tokens :=
    fun hmarked => hrepeated (repeated_of_documented (hlinked.repeated hmarked))
  rw [formatChars_of_tokens htokens hunmarked, hdoc, linkQueries_linkQueries]

/-- A text without a shape has none with links in it. -/
theorem parse?_linkQueries (h : Shape.parse? cs = none) : Shape.parse? (linkQueries cs) = none := by
  cases hparse : Shape.parse? (linkQueries cs) with
  | none => rfl
  | some shape =>
    obtain ⟨d, htokens, -⟩ := exists_derivation_of_parse? hparse
    have hlinked := tokens_linkQueries cs
    rw [← htokens] at hlinked
    have hany : d.Each (fun _ => True) (fun _ => True) fun _ => True :=
      d.each_of_mem_tokens fun _ _ => trivial
    obtain ⟨old, hold, -⟩ : ∃ old : Derivation .union, old.tokens = tokens cs ∧
        old.Each (fun _ => True) (fun _ => True) fun _ => True :=
      Derivation.exists_renamed hlinked.flip hany (fun _ _ _ _ => trivial) fun _ _ _ _ => trivial
    rw [parse?_of_tokens hold] at h
    cases h

theorem formatChars_of_parse?_eq_none (h : Shape.parse? (Text.trim cs) = none)
    (hne : Text.trim cs ≠ []) (hmarked : ¬ "...".toList <+: Text.trim cs) :
    formatChars cs = linkQueries (Text.trim cs) := by
  rw [formatChars, if_neg (by simpa using hne)]
  split
  · rename_i rest hrest
    exact absurd ⟨rest, (Text.after?_eq_some_iff.1 hrest).symm⟩ hmarked
  · rw [spell, h, Option.elim_none, linkQueries]

/-- Links change no end of a trimmed text. -/
theorem trim_linkQueries (h : Text.trim cs = cs) (hne : cs ≠ []) :
    Text.trim (linkQueries cs) = linkQueries cs ∧ linkQueries cs ≠ [] := by
  have hstart : Text.trimStart cs = cs := by rw [← h, Text.trimStart_trim]
  obtain ⟨a, c, hsplit, hc⟩ := Text.exists_concat_of_trim h hne
  obtain ⟨b, d, hlinked, hd, -⟩ := exists_linkQueries_solid hc (w := []) (by simp) a
  rw [← hsplit] at hlinked
  refine ⟨Text.trim_eq_self (trimStart_linkQueries hstart) ?_, by rw [hlinked]; simp⟩
  rw [hlinked]
  exact Text.trimEnd_concat_of_solid hd

theorem formatChars_formatChars (hmarked : ¬ "...".toList <+: Text.trim cs) (hdots : DotsOpen cs) :
    formatChars (formatChars cs) = formatChars cs := by
  by_cases hne : Text.trim cs = []
  · have hany : formatChars cs = "any".toList := by
      rw [formatChars, if_pos (by simpa using hne)]
    rw [hany]
    exact Derivation.Clean.formatChars_eq (d := .alone (.name "any".toList)) (by decide) (by decide)
  cases hparse : Shape.parse? (Text.trim cs) with
  | none =>
    obtain ⟨htrim, hlinked⟩ := trim_linkQueries (Text.trim_trim cs) hne
    have hunmarked : ¬ "...".toList <+: Text.trim (linkQueries (Text.trim cs)) := by
      rw [htrim]
      exact fun hstart => hmarked (marked_of_linkQueries hstart)
    have hnone : Shape.parse? (Text.trim (linkQueries (Text.trim cs))) = none := by
      rw [htrim]
      exact parse?_linkQueries hparse
    rw [formatChars_of_parse?_eq_none hparse hne hmarked,
      formatChars_of_parse?_eq_none hnone (by rwa [htrim]) hunmarked, htrim, linkQueries_linkQueries]
  | some shape =>
    obtain ⟨d, htokens, -⟩ := exists_derivation_of_parse? hparse
    rw [tokens_trim] at htokens
    have hrepeated : ¬ Repeated d.tokens := by
      rw [htokens]
      exact mt repeated_tokens_iff.1 hmarked
    rw [formatChars_of_tokens htokens.symm hrepeated]
    exact (Derivation.proper_of_dotsOpen htokens hdots).formatChars_linkQueries_doc hrepeated

/-- A formatted type name stays as it is, unless it starts with a repeat marker or a run ends in a dot
that does not stand before an angle bracket. -/
theorem format_format (text : String) (hmarked : ¬ "...".toList <+: Text.trim text.toList)
    (hdots : DotsOpen text.toList) : format (format text) = format text := by
  rw [format, format, String.toList_ofList, formatChars_formatChars hmarked hdots]

/-- Two type names with queries in them: one with a shape and one without. -/
theorem format_format_queries :
    (DotsOpen "Foo.<typeof Bar[]> | (typeof | Baz)[]".toList ∧
      format (format "Foo.<typeof Bar[]> | (typeof | Baz)[]") =
        format "Foo.<typeof Bar[]> | (typeof | Baz)[]") ∧
    DotsOpen "[typeof typeof Bar, Foo.< ]".toList ∧
      format (format "[typeof typeof Bar, Foo.< ]") = format "[typeof typeof Bar, Foo.< ]" := by
  have hshaped : DotsOpen "Foo.<typeof Bar[]> | (typeof | Baz)[]".toList := by decide
  have hunshaped : DotsOpen "[typeof typeof Bar, Foo.< ]".toList := by decide
  exact ⟨⟨hshaped, format_format _ (by decide) hshaped⟩, hunshaped,
    format_format _ (by decide) hunshaped⟩

end DocBlock.TypeName
