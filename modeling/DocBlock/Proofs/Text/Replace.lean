import DocBlock.Proofs.Text.Lines

/-! # Replacing a pattern

Replacing goes from left to right: at an occurrence of the pattern the new text is put and the whole
occurrence is left out, and any other character stays (`replaceAll_induction`). A text without the pattern
stays as it is, a separator that is not part of the pattern divides the work, and a text that starts like
the result starts the same way itself, unless it meets the new text. -/

namespace DocBlock.Text

variable {pattern new a b cs : List Char} {c : Char}

theorem startsWith_iff : startsWith pattern cs = true ↔ pattern <+: cs := by
  rw [startsWith, Option.isSome_iff_exists]
  constructor
  · rintro ⟨rest, h⟩
    exact ⟨rest, (after?_eq_some_iff.1 h).symm⟩
  · rintro ⟨rest, h⟩
    exact ⟨rest, after?_eq_some_iff.2 h.symm⟩

theorem replaceFrom_eq_drop (skip : Nat) (cs : List Char) :
    replaceFrom pattern new skip cs = replaceAll pattern new (cs.drop skip) := by
  induction cs generalizing skip with
  | nil => rw [List.drop_nil, replaceAll, replaceFrom.eq_def, replaceFrom.eq_def]
  | cons c cs ih =>
    cases skip with
    | zero => rfl
    | succ skip => rw [replaceFrom, ih, List.drop_succ_cons]

@[simp] theorem replaceAll_nil : replaceAll pattern new [] = [] := by
  rw [replaceAll, replaceFrom.eq_def]

theorem replaceAll_pattern (hne : pattern ≠ []) (rest : List Char) :
    replaceAll pattern new (pattern ++ rest) = new ++ replaceAll pattern new rest := by
  cases pattern with
  | nil => exact absurd rfl hne
  | cons p ps =>
    have hstart : startsWith (p :: ps) (p :: (ps ++ rest)) = true :=
      startsWith_iff.2 (List.prefix_append _ rest)
    rw [List.cons_append, replaceAll, replaceFrom, if_pos hstart, replaceFrom_eq_drop]
    simp

theorem replaceAll_cons (h : ¬ pattern <+: c :: cs) :
    replaceAll pattern new (c :: cs) = c :: replaceAll pattern new cs := by
  rw [replaceAll, replaceFrom, if_neg (fun hstart => h (startsWith_iff.1 hstart)), replaceAll]

/-- A text is empty, or it starts with the pattern, or it starts with a character that stays. -/
@[elab_as_elim]
theorem replaceAll_induction (hne : pattern ≠ []) {motive : List Char → Prop} (empty : motive [])
    (found : ∀ rest, motive rest → motive (pattern ++ rest))
    (kept : ∀ c cs, ¬ pattern <+: c :: cs → motive cs → motive (c :: cs)) (cs : List Char) :
    motive cs := by
  -- On the length, since an occurrence takes more than one character at once.
  induction hlength : cs.length using Nat.strongRecOn generalizing cs with
  | ind n ih =>
    cases cs with
    | nil => exact empty
    | cons c cs =>
      by_cases hstart : pattern <+: c :: cs
      · obtain ⟨rest, hrest⟩ := hstart
        have hpos := List.length_pos_iff.2 hne
        have hshorter : rest.length < n := by
          rw [← hlength, ← hrest, List.length_append]
          omega
        rw [← hrest]
        exact found rest (ih rest.length hshorter rest rfl)
      · refine kept c cs hstart (ih cs.length ?_ cs rfl)
        rw [← hlength, List.length_cons]
        exact Nat.lt_succ_self _

/-- A text without the pattern stays as it is. -/
theorem replaceAll_eq_self (h : ¬ pattern <:+: cs) : replaceAll pattern new cs = cs := by
  induction cs with
  | nil => exact replaceAll_nil
  | cons c cs ih =>
    have htail : ¬ pattern <:+: cs := fun hinside => h (hinside.trans (List.suffix_cons c cs).isInfix)
    rw [replaceAll_cons (fun hstart => h hstart.isInfix), ih htail]

theorem prefix_of_prefix_append_cons (hc : c ∉ pattern) (h : pattern <+: a ++ c :: b) :
    pattern <+: a := by
  rcases Nat.lt_or_ge a.length pattern.length with hlong | hshort
  · have hthrough : a ++ [c] <+: pattern := by
      refine List.prefix_of_prefix_length_le ⟨b, by simp⟩ h ?_
      rw [List.length_append, List.length_singleton]
      exact hlong
    exact absurd (hthrough.subset (by simp)) hc
  · exact List.prefix_of_prefix_length_le h (List.prefix_append a _) hshort

/-- A separator that is not part of the pattern divides the work. -/
theorem replaceAll_append_cons (hne : pattern ≠ []) (hc : c ∉ pattern) (a b : List Char) :
    replaceAll pattern new (a ++ c :: b) =
      replaceAll pattern new a ++ c :: replaceAll pattern new b := by
  have hother : ∀ rest, ¬ pattern <+: c :: rest := by
    intro rest hstart
    exact hne (List.prefix_nil.1 (prefix_of_prefix_append_cons (a := []) hc hstart))
  induction a using replaceAll_induction hne with
  | empty => rw [List.nil_append, replaceAll_nil, List.nil_append, replaceAll_cons (hother b)]
  | found rest ih =>
    rw [List.append_assoc, replaceAll_pattern hne, ih, replaceAll_pattern hne, List.append_assoc]
  | kept d ds hstart ih =>
    have hstay : ¬ pattern <+: d :: (ds ++ c :: b) := by
      intro hlonger
      rw [← List.cons_append] at hlonger
      exact hstart (prefix_of_prefix_append_cons hc hlonger)
    rw [List.cons_append, replaceAll_cons hstay, ih, replaceAll_cons hstart, List.cons_append]

theorem mem_replaceAll (hne : pattern ≠ []) (h : c ∈ replaceAll pattern new cs) :
    c ∈ cs ∨ c ∈ new := by
  induction cs using replaceAll_induction hne with
  | empty => exact .inl (by rwa [replaceAll_nil] at h)
  | found rest ih =>
    rw [replaceAll_pattern hne, List.mem_append] at h
    rcases h with h | h
    · exact .inr h
    · exact (ih h).imp_left (List.mem_append_right pattern)
  | kept d ds hstart ih =>
    rw [replaceAll_cons hstart, List.mem_cons] at h
    rcases h with rfl | h
    · exact .inl List.mem_cons_self
    · exact (ih h).imp_left (List.mem_cons_of_mem d)

/-! ## New texts that the pattern does not meet -/

/-- A pattern and a new text such that putting the new text in makes no new occurrence. -/
structure Settles (pattern new : List Char) : Prop where
  pattern_ne : pattern ≠ []
  new_ne : new ≠ []
  /-- The new text starts with a character that is not part of the pattern. -/
  apart : ∀ c ∈ new.head?, c ∉ pattern
  /-- The pattern starts with a character that is not part of the new text. -/
  fresh : ∀ c ∈ pattern.head?, c ∉ new

variable {start : List Char}

/-- How the result starts is how the text starts, up to where a new text starts. -/
theorem prefix_of_prefix_replaceAll (h : Settles pattern new) (hstart : ∀ c ∈ new.head?, c ∉ start)
    (hstarts : start <+: replaceAll pattern new cs) : start <+: cs := by
  induction cs using replaceAll_induction h.pattern_ne generalizing start with
  | empty => rwa [replaceAll_nil] at hstarts
  | found rest ih =>
    obtain ⟨d, more, hnew⟩ := List.exists_cons_of_ne_nil h.new_ne
    rw [replaceAll_pattern h.pattern_ne, hnew] at hstarts
    have hd : d ∉ start := hstart d (by rw [hnew]; rfl)
    rw [List.prefix_nil.1 (prefix_of_prefix_append_cons (a := []) hd hstarts)]
    exact List.nil_prefix
  | kept d ds hkept ih =>
    rw [replaceAll_cons hkept] at hstarts
    cases start with
    | nil => exact List.nil_prefix
    | cons s start =>
      obtain ⟨rfl, hmore⟩ := List.cons_prefix_cons.1 hstarts
      refine List.cons_prefix_cons.2 ⟨rfl, ih (fun c hc hmem => ?_) hmore⟩
      exact hstart c hc (List.mem_cons_of_mem s hmem)

/-- The result does not have the pattern any more. -/
theorem not_infix_replaceAll (h : Settles pattern new) (cs : List Char) :
    ¬ pattern <:+: replaceAll pattern new cs := by
  obtain ⟨p, ps, hpattern⟩ := List.exists_cons_of_ne_nil h.pattern_ne
  have hfresh : p ∉ new := h.fresh p (by rw [hpattern]; rfl)
  -- No occurrence starts in a text without the first character of the pattern.
  have hbehind : ∀ text, p ∉ text → ∀ rest, pattern <:+: text ++ rest → pattern <:+: rest := by
    intro text htext rest hinside
    induction text with
    | nil => exact hinside
    | cons c text ih =>
      rcases List.infix_cons_iff.1 hinside with hstart | hlater
      · rw [hpattern] at hstart
        exact absurd ((List.cons_prefix_cons.1 hstart).1 ▸ List.mem_cons_self) htext
      · exact ih (fun hmem => htext (List.mem_cons_of_mem c hmem)) hlater
  induction cs using replaceAll_induction h.pattern_ne with
  | empty =>
    rw [replaceAll_nil]
    exact fun hinside => h.pattern_ne (List.infix_nil.1 hinside)
  | found rest ih =>
    rw [replaceAll_pattern h.pattern_ne]
    exact fun hinside => ih (hbehind new hfresh _ hinside)
  | kept c cs hkept ih =>
    intro hinside
    have hresult : replaceAll pattern new (c :: cs) = c :: replaceAll pattern new cs :=
      replaceAll_cons hkept
    rw [hresult] at hinside
    rcases List.infix_cons_iff.1 hinside with hstart | hlater
    · rw [← hresult] at hstart
      exact hkept (prefix_of_prefix_replaceAll h h.apart hstart)
    · exact ih hlater

/-- Replacing once more changes nothing. -/
theorem replaceAll_replaceAll (h : Settles pattern new) (cs : List Char) :
    replaceAll pattern new (replaceAll pattern new cs) = replaceAll pattern new cs :=
  replaceAll_eq_self (not_infix_replaceAll h cs)

end DocBlock.Text
