import DocBlock.Text.Lines
import DocBlock.Proofs.Text.Trim

/-! # Lines and joins

Splitting a text at line feeds and joining the pieces are inverse to each other, and a text whose
lines end in no blank has as its lines just these pieces. Trimming a joined text drops the empty
lines at its ends and trims the first line that is left. The first occurrence of a pattern is where
`cutAt?` cuts. -/

namespace DocBlock.Text

variable {cs l : List Char} {ls : List (List Char)}

/-! ## Splitting and joining -/

theorem splitOn_eq_list_splitOn (sep : Char) (cs : List Char) : splitOn sep cs = cs.splitOn sep := by
  induction cs with
  | nil => simp [splitOn]
  | cons c cs ih =>
    rw [splitOn, List.splitOn_cons_eq_if_modifyHead, ← ih]
    by_cases h : c = sep
    · simp [h]
    · rw [if_neg h, if_neg (by simpa using h)]
      cases hp : splitOn sep cs with
      | nil => exact absurd (ih ▸ hp) (List.splitOn_ne_nil sep cs)
      | cons piece pieces => rfl

theorem join_eq_intercalate (sep : List Char) (ls : List (List Char)) :
    join sep ls = sep.intercalate ls := by
  fun_induction join sep ls with
  | case1 => simp
  | case2 piece => simp
  | case3 piece next pieces ih =>
    rw [List.intercalate_cons_of_ne_nil (List.cons_ne_nil next pieces), ih]

theorem splitOn_ne_nil (sep : Char) (cs : List Char) : splitOn sep cs ≠ [] := by
  rw [splitOn_eq_list_splitOn]
  exact List.splitOn_ne_nil sep cs

theorem join_splitOn (sep : Char) (cs : List Char) : join [sep] (splitOn sep cs) = cs := by
  rw [join_eq_intercalate, splitOn_eq_list_splitOn, List.intercalate_splitOn]

theorem splitOn_join {sep : Char} (h : ∀ l ∈ ls, sep ∉ l) (hne : ls ≠ []) :
    splitOn sep (join [sep] ls) = ls := by
  rw [join_eq_intercalate, splitOn_eq_list_splitOn, List.splitOn_intercalate sep h hne]

/-- A text with a separator in it is split there. -/
theorem splitOn_append_cons (sep : Char) (a b : List Char) :
    splitOn sep (a ++ sep :: b) = splitOn sep a ++ splitOn sep b := by
  simp only [splitOn_eq_list_splitOn, List.splitOn_append_cons_self]

theorem not_mem_of_mem_splitOn {sep : Char} (h : l ∈ splitOn sep cs) : sep ∉ l := by
  induction cs generalizing l with
  | nil => simp_all [splitOn]
  | cons c cs ih =>
    rw [splitOn] at h
    split at h
    · rcases List.mem_cons.1 h with rfl | h
      · simp
      · exact ih h
    · rename_i hc
      cases hp : splitOn sep cs with
      | nil => exact absurd hp (splitOn_ne_nil sep cs)
      | cons piece pieces =>
        rw [hp, consFirst] at h
        rcases List.mem_cons.1 h with rfl | h
        · have := ih (l := piece) (by simp [hp])
          simp only [List.mem_cons, not_or]
          exact ⟨fun e => hc e.symm, this⟩
        · exact ih (by simp [hp, h])

@[simp] theorem join_singleton (sep l : List Char) : join sep [l] = l := rfl

theorem splitOn_of_not_mem {sep : Char} {cs : List Char} (h : sep ∉ cs) : splitOn sep cs = [cs] := by
  have hjoin : splitOn sep (join [sep] [cs]) = [cs] :=
    splitOn_join (by simpa using h) (List.cons_ne_nil _ _)
  rwa [join_singleton] at hjoin

theorem join_cons_of_ne_nil (sep l : List Char) (h : ls ≠ []) :
    join sep (l :: ls) = l ++ sep ++ join sep ls := by
  cases ls with
  | nil => exact absurd rfl h
  | cons next pieces => rfl

theorem join_concat_of_ne_nil (sep l : List Char) (h : ls ≠ []) :
    join sep (ls ++ [l]) = join sep ls ++ sep ++ l := by
  induction ls with
  | nil => exact absurd rfl h
  | cons first rest ih =>
    by_cases hr : rest = []
    · simp [hr, join]
    · rw [List.cons_append, join_cons_of_ne_nil sep first (by simp), ih hr,
        join_cons_of_ne_nil sep first hr]
      simp

/-- Each joined piece is a part of the whole. -/
theorem infix_join_of_mem (sep : List Char) (h : l ∈ ls) : l <:+: join sep ls := by
  rw [join_eq_intercalate]
  induction ls with
  | nil => simp at h
  | cons first rest ih =>
    by_cases hr : rest = []
    · simp_all
    · rw [List.intercalate_cons_of_ne_nil hr]
      rcases List.mem_cons.1 h with rfl | h
      · exact ⟨[], sep ++ sep.intercalate rest, by simp⟩
      · exact (ih h).trans (List.suffix_append _ _).isInfix

/-- In front of each text but the first stands a separator. -/
theorem join_eq_append_flatMap (sep l : List Char) (ls : List (List Char)) :
    join sep (l :: ls) = l ++ ls.flatMap (sep ++ ·) := by
  induction ls generalizing l with
  | nil => simp
  | cons next rest ih =>
    rw [join_cons_of_ne_nil _ _ (List.cons_ne_nil next rest), ih, List.flatMap_cons]
    simp

theorem join_cons_eq_flatMap (sep : Char) (l : List Char) (ls : List (List Char)) :
    join [sep] (l :: ls) = l ++ ls.flatMap (sep :: ·) :=
  join_eq_append_flatMap [sep] l ls

/-! ## Patterns across separators -/

/-- A pattern without the separator stands on one side of it. -/
theorem infix_or_infix_of_infix_append {sep : Char} {pattern a b : List Char} (hsep : sep ∉ pattern)
    (h : pattern <:+: a ++ sep :: b) : pattern <:+: a ∨ pattern <:+: b := by
  obtain ⟨u, v, huv⟩ := h
  rcases List.append_eq_append_iff.1 huv with ⟨t, ha, -⟩ | ⟨t, hup, hsb⟩
  · exact .inl ⟨u, t, ha.symm⟩
  · cases t with
    | nil => exact .inl ⟨u, [], by simpa using hup⟩
    | cons s t =>
      obtain ⟨rfl, hb⟩ := List.cons.inj hsb
      rcases List.append_eq_append_iff.1 hup with ⟨t', -, hp⟩ | ⟨t', -, hp⟩
      · exact absurd (by simp [hp]) hsep
      · cases t' with
        | nil => exact absurd (by rw [← List.nil_append pattern, ← hp]; simp) hsep
        | cons s' t' =>
          obtain ⟨rfl, rfl⟩ := List.cons.inj hp
          exact .inr ⟨t', v, hb.symm⟩

/-- A pattern without the separator stands in one of the pieces. -/
theorem exists_infix_of_infix_join {sep : Char} {pattern : List Char} (hsep : sep ∉ pattern)
    (hne : ls ≠ []) (h : pattern <:+: join [sep] ls) : ∃ l ∈ ls, pattern <:+: l := by
  induction ls with
  | nil => exact absurd rfl hne
  | cons l ls ih =>
    by_cases hls : ls = []
    · subst hls
      exact ⟨l, by simp, h⟩
    · rw [join_cons_of_ne_nil _ _ hls, List.append_assoc, List.singleton_append] at h
      rcases infix_or_infix_of_infix_append hsep h with h | h
      · exact ⟨l, by simp, h⟩
      · obtain ⟨l', hmem, hin⟩ := ih hls h
        exact ⟨l', List.mem_cons_of_mem l hmem, hin⟩

theorem infix_of_infix_cons {pattern b : List Char} {c : Char} (hne : pattern ≠ [])
    (hc : c ∉ pattern) (h : pattern <:+: c :: b) : pattern <:+: b := by
  rcases infix_or_infix_of_infix_append (a := []) hc h with hnil | hb
  · exact absurd (List.infix_nil.1 hnil) hne
  · exact hb

theorem infix_trimStart {pattern : List Char} (hne : pattern ≠ [])
    (hsolid : ∀ c ∈ pattern, isBlank c = false) (h : pattern <:+: cs) :
    pattern <:+: trimStart cs := by
  induction cs with
  | nil => exact h
  | cons c cs ih =>
    cases hc : isBlank c with
    | false => rwa [trimStart_cons_of_solid hc]
    | true =>
      rw [trimStart_cons_of_blank hc]
      refine ih (infix_of_infix_cons hne (fun hmem => ?_) h)
      rw [hsolid c hmem] at hc
      cases hc

/-- A pattern without blanks that stands in a text stands in the trimmed text. -/
theorem infix_trim {pattern : List Char} (hne : pattern ≠ [])
    (hsolid : ∀ c ∈ pattern, isBlank c = false) (h : pattern <:+: cs) : pattern <:+: trim cs := by
  have hstart := infix_trimStart hne hsolid h
  rw [← List.reverse_infix] at hstart
  have hend := infix_trimStart (by simpa using hne) (by simpa using hsolid) hstart
  rwa [← List.reverse_infix, List.reverse_reverse] at hend

/-! ## Lines -/

theorem linesOfPieces_concat (pieces : List (List Char)) (last : List Char) :
    linesOfPieces (pieces ++ [last]) =
      pieces.map dropReturn ++ (if last.isEmpty then [] else [last]) := by
  induction pieces with
  | nil => rfl
  | cons piece pieces ih =>
    cases pieces with
    | nil => rfl
    | cons next pieces =>
      simp only [List.cons_append, linesOfPieces, List.map_cons] at ih ⊢
      rw [ih]

theorem dropReturn_eq_self (h : trimEnd l = l) : dropReturn l = l := by
  rw [dropReturn, if_neg]
  intro hlast
  have hblank := isBlank_getLast_of_trimEnd h hlast
  exact absurd hblank (by decide)

/-- Trimmed pieces, the last of which is not empty, are all lines. -/
theorem linesOfPieces_eq_self (htrim : ∀ l ∈ ls, trimEnd l = l) (hlast : ls.getLast? ≠ some []) :
    linesOfPieces ls = ls := by
  rcases List.eq_nil_or_concat ls with rfl | ⟨pieces, last, rfl⟩
  · rfl
  · simp only [List.concat_eq_append] at htrim hlast ⊢
    have hne : last ≠ [] := by simpa using hlast
    have hmap : pieces.map dropReturn = pieces := by
      rw [List.map_congr_left (g := id), List.map_id]
      intro l hl
      exact dropReturn_eq_self (htrim l (by simp [hl]))
    rw [linesOfPieces_concat, hmap, if_neg (by simpa using hne)]

/-- The last line of a text that ends in no blank is not empty. -/
theorem getLast?_splitOn_ne (hne : cs ≠ []) (htrim : trimEnd cs = cs) :
    (splitOn '\n' cs).getLast? ≠ some [] := by
  intro hlast
  obtain ⟨front, hfront⟩ := List.getLast?_eq_some_iff.1 hlast
  have hjoin := join_splitOn '\n' cs
  by_cases hf : front = []
  · rw [hfront, hf] at hjoin
    exact hne hjoin.symm
  · rw [hfront, join_concat_of_ne_nil _ _ hf, List.append_nil] at hjoin
    have hblank : isBlank '\n' = false := isBlank_getLast_of_trimEnd htrim (by rw [← hjoin]; simp)
    exact absurd hblank (by decide)

theorem lines_eq_splitOn (htrim : ∀ l ∈ splitOn '\n' cs, trimEnd l = l)
    (hlast : (splitOn '\n' cs).getLast? ≠ some []) : lines cs = splitOn '\n' cs :=
  linesOfPieces_eq_self htrim hlast

/-- A line is a piece between line feeds, perhaps without a carriage return. -/
theorem exists_piece_of_mem_lines (h : l ∈ lines cs) : ∃ piece ∈ splitOn '\n' cs, l <+: piece := by
  rw [lines] at h
  rcases List.eq_nil_or_concat (splitOn '\n' cs) with hnil | ⟨pieces, last, hp⟩
  · simp [hnil, linesOfPieces] at h
  · rw [List.concat_eq_append] at hp
    rw [hp, linesOfPieces_concat, List.mem_append] at h
    rcases h with h | h
    · obtain ⟨piece, hpiece, rfl⟩ := List.mem_map.1 h
      refine ⟨piece, by simp [hp, hpiece], ?_⟩
      rw [dropReturn]
      split
      · exact List.dropLast_prefix piece
      · exact List.prefix_rfl
    · split at h
      · simp at h
      · obtain rfl := List.mem_singleton.1 h
        exact ⟨l, by simp [hp], List.prefix_rfl⟩

theorem newline_not_mem_of_mem_lines (h : l ∈ lines cs) : '\n' ∉ l := by
  obtain ⟨piece, hpiece, hl⟩ := exists_piece_of_mem_lines h
  exact fun hmem => not_mem_of_mem_splitOn hpiece (hl.subset hmem)

theorem infix_of_mem_lines (h : l ∈ lines cs) : l <:+: cs := by
  obtain ⟨piece, hpiece, hl⟩ := exists_piece_of_mem_lines h
  have hinfix := infix_join_of_mem ['\n'] hpiece
  rw [join_splitOn] at hinfix
  exact hl.isInfix.trans hinfix

/-! ## Trimming joined lines -/

/-- Lines without the empty ones at their end. -/
def dropEmptyEnd (ls : List (List Char)) : List (List Char) :=
  ls.rdropWhile List.isEmpty

theorem dropEmptyEnd_prefix (ls : List (List Char)) : dropEmptyEnd ls <+: ls :=
  List.rdropWhile_prefix _ ls

/-- Unless all lines are empty, the first one is left. -/
theorem exists_dropEmptyEnd_cons {l : List Char} (hne : dropEmptyEnd (l :: ls) ≠ []) :
    ∃ more, dropEmptyEnd (l :: ls) = l :: more ∧ more <+: ls := by
  obtain ⟨tail, htail⟩ := dropEmptyEnd_prefix (l :: ls)
  cases hdrop : dropEmptyEnd (l :: ls) with
  | nil => exact absurd hdrop hne
  | cons first more =>
    rw [hdrop, List.cons_append] at htail
    obtain ⟨rfl, hrest⟩ := List.cons.inj htail
    exact ⟨more, rfl, tail, hrest⟩

theorem dropEmptyEnd_append_empty {pad : List (List Char)} (hpad : ∀ l ∈ pad, l = []) :
    dropEmptyEnd (ls ++ pad) = dropEmptyEnd ls := by
  simp only [dropEmptyEnd, List.rdropWhile, List.reverse_append]
  rw [List.dropWhile_append_of_pos]
  intro l hl
  simp [hpad l (List.mem_reverse.1 hl)]

theorem dropEmptyEnd_eq_self (h : ls.getLast? ≠ some []) : dropEmptyEnd ls = ls := by
  rw [dropEmptyEnd, List.rdropWhile_eq_self_iff]
  intro hne hempty
  apply h
  rw [List.getLast?_eq_some_getLast hne, List.isEmpty_iff.1 hempty]

/-- Trimming the end of joined lines, none of which ends in a blank, drops the empty lines there. -/
theorem trimEnd_join (h : ∀ l ∈ ls, trimEnd l = l) :
    trimEnd (join ['\n'] ls) = join ['\n'] (dropEmptyEnd ls) := by
  induction ls using List.reverseRecOn with
  | nil => rfl
  | append_singleton ls l ih =>
    have hls : ∀ l ∈ ls, trimEnd l = l := fun l' hl' => h l' (by simp [hl'])
    have hl : trimEnd l = l := h l (by simp)
    by_cases hne : ls = []
    · subst hne
      cases l with
      | nil => rfl
      | cons c cs => simpa [dropEmptyEnd, List.rdropWhile_singleton, join] using hl
    · rw [join_concat_of_ne_nil _ _ hne]
      by_cases hempty : l = []
      · rw [hempty, dropEmptyEnd, List.rdropWhile_concat_pos _ _ _ rfl, List.append_nil,
          trimEnd_append_blanks (List.forall_mem_singleton.2 (by decide)), ih hls, dropEmptyEnd]
      · rw [dropEmptyEnd, List.rdropWhile_concat_neg _ _ _ (by simpa using hempty),
          join_concat_of_ne_nil _ _ hne, trimEnd_append_of_ne_nil (by rwa [hl]), hl]

/-- Trimming the start of joined lines, none of which ends in a blank, drops the empty lines there
and trims the start of the first line that is left. -/
theorem trimStart_join (h : ∀ l ∈ ls, trimEnd l = l) :
    trimStart (join ['\n'] ls) =
      join ['\n'] ((ls.dropWhile List.isEmpty).modifyHead trimStart) := by
  induction ls with
  | nil => rfl
  | cons l ls ih =>
    have hls : ∀ l ∈ ls, trimEnd l = l := fun l' hl' => h l' (by simp [hl'])
    have hl : trimEnd l = l := h l (by simp)
    by_cases hempty : l = []
    · subst hempty
      rw [List.dropWhile_cons_of_pos rfl, ← ih hls]
      cases ls with
      | nil => rfl
      | cons next rest =>
        rw [join_cons_of_ne_nil _ _ (List.cons_ne_nil next rest), List.append_assoc,
          List.nil_append, trimStart_blanks_append (List.forall_mem_singleton.2 (by decide))]
    · rw [List.dropWhile_cons_of_neg (by simpa using hempty), List.modifyHead_cons]
      -- A line that is not empty ends in something solid, so it is not blank as a whole.
      have hstart : trimStart l ≠ [] := by
        intro hnil
        have hblank : trim l = [] := by rw [trim, hnil, trimEnd_nil]
        rw [trim_eq_nil_iff, ← trimEnd_eq_nil_iff, hl] at hblank
        exact hempty hblank
      by_cases hne : ls = []
      · subst hne
        rfl
      · rw [join_cons_of_ne_nil _ _ hne, join_cons_of_ne_nil _ _ hne, List.append_assoc,
          List.append_assoc, trimStart_append_of_ne_nil hstart]

/-! ## The first occurrence of a pattern -/

theorem after?_eq_some_iff {pattern rest : List Char} :
    after? pattern cs = some rest ↔ cs = pattern ++ rest := by
  fun_induction after? pattern cs with
  | case1 cs => simp [eq_comm]
  | case2 => simp
  | case3 p ps cs ih => simp [ih]
  | case4 p ps c cs hne => simp [eq_comm, hne]

theorem startsWith_singleton_iff {c : Char} {cs : List Char} :
    startsWith [c] cs = true ↔ ∃ rest, cs = c :: rest := by
  rw [startsWith, Option.isSome_iff_exists]
  exact exists_congr fun _ => after?_eq_some_iff

theorem endsWith_singleton_iff {c : Char} {cs : List Char} :
    endsWith [c] cs = true ↔ ∃ before, cs = before ++ [c] := by
  rw [endsWith, before?, Option.isSome_map, Option.isSome_iff_exists]
  constructor
  · rintro ⟨rest, hrest⟩
    rw [after?_eq_some_iff, List.reverse_singleton, List.singleton_append] at hrest
    exact ⟨rest.reverse, by rw [← List.reverse_cons, ← hrest, List.reverse_reverse]⟩
  · rintro ⟨before, rfl⟩
    exact ⟨before.reverse, after?_eq_some_iff.2 (by simp)⟩

/-- A text is cut at a place before which the pattern does not occur. -/
theorem cutAt?_append {pattern before : List Char} (hp : pattern ≠ [])
    (h : ¬ pattern <:+: before ++ pattern.dropLast) (rest : List Char) :
    cutAt? pattern (before ++ pattern ++ rest) = some (before, rest) := by
  induction before with
  | nil =>
    obtain ⟨p, ps, rfl⟩ := List.exists_cons_of_ne_nil hp
    have hafter : after? (p :: ps) (p :: ps ++ rest) = some rest := after?_eq_some_iff.2 rfl
    rw [List.nil_append, List.cons_append, cutAt?, ← List.cons_append, hafter]
  | cons c before ih =>
    have hnot : after? pattern (c :: (before ++ pattern ++ rest)) = none := by
      rw [Option.eq_none_iff_forall_ne_some]
      intro rest' hrest
      rw [after?_eq_some_iff] at hrest
      -- The pattern would be a prefix of the text up to its own last character but one.
      have hpre : pattern <+: c :: (before ++ pattern ++ rest) := ⟨rest', hrest.symm⟩
      have hother : c :: before ++ pattern.dropLast <+: c :: (before ++ pattern ++ rest) := by
        have hdrop : c :: before ++ pattern.dropLast <+: c :: before ++ pattern :=
          (List.prefix_append_right_inj (c :: before)).2 (List.dropLast_prefix pattern)
        exact hdrop.trans ⟨rest, by simp⟩
      have hlen : pattern.length ≤ (c :: before ++ pattern.dropLast).length := by
        have := List.length_pos_of_ne_nil hp
        simp only [List.length_append, List.length_cons, List.length_dropLast]
        omega
      exact h (List.prefix_of_prefix_length_le hpre hother hlen).isInfix
    have htail : ¬ pattern <:+: before ++ pattern.dropLast := fun hin =>
      h (hin.trans (List.suffix_cons c _).isInfix)
    rw [List.cons_append, List.cons_append, cutAt?, hnot, ih htail]
    rfl

/-- What stands before the place where a text is cut does not hold the pattern. -/
theorem not_infix_of_cutAt? {pattern before rest : List Char} (hp : pattern ≠ [])
    (h : cutAt? pattern cs = some (before, rest)) :
    ¬ pattern <:+: before ∧ cs = before ++ pattern ++ rest := by
  induction cs generalizing before rest with
  | nil =>
    obtain ⟨rest', hrest, heq⟩ := Option.map_eq_some_iff.1 h
    rw [after?_eq_some_iff] at hrest
    exact absurd (List.append_eq_nil_iff.1 hrest.symm).1 hp
  | cons c cs ih =>
    rw [cutAt?] at h
    cases hafter : after? pattern (c :: cs) with
    | some rest' =>
      rw [hafter] at h
      obtain ⟨rfl, rfl⟩ := Prod.mk.inj (Option.some.inj h)
      refine ⟨by simpa using hp, ?_⟩
      simpa using after?_eq_some_iff.1 hafter
    | none =>
      rw [hafter] at h
      obtain ⟨⟨before', rest'⟩, hcut, heq⟩ := Option.map_eq_some_iff.1 h
      obtain ⟨rfl, rfl⟩ := Prod.mk.inj heq
      obtain ⟨hnot, rfl⟩ := ih hcut
      refine ⟨?_, by simp⟩
      rw [List.infix_cons_iff, not_or]
      refine ⟨?_, hnot⟩
      -- An earlier occurrence would have been found here.
      rintro ⟨tail, htail⟩
      have hsome : after? pattern (c :: (before' ++ pattern ++ rest')) =
          some (tail ++ pattern ++ rest') := by
        rw [after?_eq_some_iff, ← List.append_assoc, ← List.append_assoc, htail]
        simp
      rw [hsome] at hafter
      simp at hafter

end DocBlock.Text
