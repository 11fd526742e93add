import DocBlock.Text.Alphabetic
import DocBlock.Text.Blank
import Mathlib.Data.List.DropRight

/-! # Trimming

What the trimming functions leave and what they take away. Blanks at an end of a text are taken away
as a whole run, a text that ends in anything else keeps its end, and a second trimming changes
nothing. -/

namespace DocBlock.Text

variable {a b cs w : List Char} {c : Char}

/-! ## Blank characters -/

/-- The code points of the blank characters. -/
def blankCodes : List Nat :=
  [0x09, 0x0A, 0x0B, 0x0C, 0x0D, 0x20, 0x85, 0xA0, 0x1680, 0x2000, 0x2001, 0x2002, 0x2003, 0x2004,
   0x2005, 0x2006, 0x2007, 0x2008, 0x2009, 0x200A, 0x2028, 0x2029, 0x202F, 0x205F, 0x3000]

theorem mem_blankCodes (h : isBlank c = true) : c.toNat ∈ blankCodes := by
  simp only [isBlank, Bool.or_eq_true, Bool.and_eq_true, decide_eq_true_eq, beq_iff_eq] at h
  simp only [blankCodes, List.mem_cons, List.not_mem_nil, or_false]
  omega

/-- No blank character is alphabetic. -/
theorem isAlphabetic_of_isBlank (h : isBlank c = true) : isAlphabetic c = false := by
  have hall : ∀ n ∈ blankCodes, isAlphabetic (Char.ofNat n) = false := by decide +kernel
  have hc := hall c.toNat (mem_blankCodes h)
  rwa [Char.ofNat_toNat] at hc

/-- A text without blanks. -/
def IsSolid (cs : List Char) : Prop :=
  ∀ c ∈ cs, isBlank c = false

instance (cs : List Char) : Decidable (IsSolid cs) :=
  List.decidableBAll _ cs

theorem isAllBlank_iff : isAllBlank cs = true ↔ ∀ c ∈ cs, isBlank c = true :=
  List.all_eq_true

@[simp] theorem isAllBlank_nil : isAllBlank [] = true := rfl

/-! ## The start of a text -/

@[simp] theorem trimStart_nil : trimStart [] = [] := rfl

theorem trimStart_cons_of_blank (h : isBlank c = true) : trimStart (c :: cs) = trimStart cs :=
  List.dropWhile_cons_of_pos h

theorem trimStart_cons_of_solid (h : isBlank c = false) : trimStart (c :: cs) = c :: cs :=
  List.dropWhile_cons_of_neg (by simp [h])

/-- A run of blanks in front of a text is taken away. -/
theorem trimStart_blanks_append (hw : ∀ c ∈ w, isBlank c = true) :
    trimStart (w ++ cs) = trimStart cs :=
  List.dropWhile_append_of_pos hw

/-- What is left starts with no blank. -/
theorem isBlank_head_trimStart (h : (trimStart cs).head? = some c) : isBlank c = false := by
  have hhead := List.head?_dropWhile_not isBlank cs
  rw [trimStart] at h
  rw [h] at hhead
  simpa using hhead

theorem trimStart_trimStart (cs : List Char) : trimStart (trimStart cs) = trimStart cs :=
  List.dropWhile_idempotent isBlank cs

/-- A text is a run of blanks followed by what trimming leaves. -/
theorem exists_blanks_append_trimStart (cs : List Char) :
    ∃ w, (∀ c ∈ w, isBlank c = true) ∧ cs = w ++ trimStart cs :=
  ⟨cs.takeWhile isBlank, fun _ hc => List.mem_takeWhile_imp hc,
    (List.takeWhile_append_dropWhile).symm⟩

theorem trimStart_suffix (cs : List Char) : trimStart cs <:+ cs :=
  List.dropWhile_suffix isBlank

theorem trimStart_append_of_ne_nil (h : trimStart a ≠ []) : trimStart (a ++ b) = trimStart a ++ b := by
  obtain ⟨w, hw, ha⟩ := exists_blanks_append_trimStart a
  obtain ⟨c, rest, hrest⟩ := List.exists_cons_of_ne_nil h
  have hc : isBlank c = false := isBlank_head_trimStart (by rw [hrest]; rfl)
  conv_lhs => rw [ha]
  rw [List.append_assoc, trimStart_blanks_append hw, hrest, List.cons_append,
    trimStart_cons_of_solid hc]

/-- What stands first in a text that starts with no blank starts with none. -/
theorem trimStart_eq_self_of_append (h : trimStart (a ++ b) = a ++ b) (hne : trimStart a ≠ []) :
    trimStart a = a := by
  rw [trimStart_append_of_ne_nil hne] at h
  exact List.append_cancel_right h

/-! ## The end of a text -/

theorem trimEnd_eq_rdropWhile (cs : List Char) : trimEnd cs = cs.rdropWhile isBlank := rfl

@[simp] theorem trimEnd_nil : trimEnd [] = [] := rfl

theorem trimEnd_eq_nil_iff : trimEnd cs = [] ↔ ∀ c ∈ cs, isBlank c = true := by
  rw [trimEnd_eq_rdropWhile, List.rdropWhile_eq_nil_iff]

theorem trimEnd_prefix (cs : List Char) : trimEnd cs <+: cs :=
  List.rdropWhile_prefix isBlank cs

theorem trimEnd_trimEnd (cs : List Char) : trimEnd (trimEnd cs) = trimEnd cs :=
  List.rdropWhile_idempotent isBlank cs

/-- A run of blanks behind a text is taken away. -/
theorem trimEnd_append_blanks (hw : ∀ c ∈ w, isBlank c = true) :
    trimEnd (cs ++ w) = trimEnd cs := by
  simp only [trimEnd, List.reverse_append]
  rw [List.dropWhile_append_of_pos (by simpa using hw)]

/-- Only the second of two pieces is trimmed unless it is blank as a whole. -/
theorem trimEnd_append_of_ne_nil (h : trimEnd b ≠ []) : trimEnd (a ++ b) = a ++ trimEnd b := by
  have hb : trimStart b.reverse ≠ [] := by simpa [trimEnd, trimStart] using h
  have key := trimStart_append_of_ne_nil (b := a.reverse) hb
  simp only [trimStart] at key
  simp only [trimEnd, List.reverse_append, key, List.reverse_reverse]

/-- A text is what trimming leaves followed by a run of blanks. -/
theorem exists_trimEnd_append_blanks (cs : List Char) :
    ∃ w, (∀ c ∈ w, isBlank c = true) ∧ cs = trimEnd cs ++ w :=
  ⟨cs.rtakeWhile isBlank, fun _ hc => List.mem_rtakeWhile_imp hc,
    List.rdropWhile_append_rtakeWhile.symm⟩

theorem trimEnd_concat_of_solid (h : isBlank c = false) : trimEnd (cs ++ [c]) = cs ++ [c] :=
  List.rdropWhile_concat_neg isBlank cs c (by simp [h])

theorem trimEnd_eq_self_of_getLast (h : ∀ c ∈ cs.getLast?, isBlank c = false) :
    trimEnd cs = cs := by
  rw [trimEnd_eq_rdropWhile, List.rdropWhile_eq_self_iff]
  intro hne
  have hlast := h (cs.getLast hne) (List.getLast?_eq_some_getLast hne)
  simp [hlast]

/-- The last character of a trimmed text is no blank. -/
theorem isBlank_getLast_of_trimEnd (h : trimEnd cs = cs) (hc : cs.getLast? = some c) :
    isBlank c = false := by
  have hne : cs ≠ [] := by
    rintro rfl
    simp at hc
  rw [trimEnd_eq_rdropWhile, List.rdropWhile_eq_self_iff] at h
  have hlast := h hne
  rw [List.getLast?_eq_some_getLast hne] at hc
  rw [Option.some.inj hc] at hlast
  simpa using hlast

/-- The end of a trimmed text is trimmed. -/
theorem trimEnd_eq_self_of_suffix (hsuf : a <:+ b) (h : trimEnd b = b) : trimEnd a = a := by
  apply trimEnd_eq_self_of_getLast
  intro c hc
  obtain ⟨front, rfl⟩ := hsuf
  apply isBlank_getLast_of_trimEnd h
  rw [List.getLast?_append, Option.mem_def.1 hc, Option.some_or]

/-! ## Both ends -/

theorem trim_eq_nil_iff : trim cs = [] ↔ ∀ c ∈ cs, isBlank c = true := by
  obtain ⟨w, hw, hcs⟩ := exists_blanks_append_trimStart cs
  rw [trim, trimEnd_eq_nil_iff]
  constructor
  · intro h c hc
    rw [hcs, List.mem_append] at hc
    exact hc.elim (hw c) (h c)
  · intro h c hc
    exact h c ((trimStart_suffix cs).subset hc)

/-- Trimming the end first gives the same text. -/
theorem trim_eq_trimStart_trimEnd (cs : List Char) : trim cs = trimStart (trimEnd cs) := by
  obtain ⟨w, hw, hcs⟩ := exists_blanks_append_trimStart cs
  by_cases h : trimEnd (trimStart cs) = []
  · have hblank : trimEnd cs = [] := by
      rw [trimEnd_eq_nil_iff, ← trim_eq_nil_iff]
      exact h
    rw [trim, h, hblank, trimStart_nil]
  · have hend : trimEnd cs = w ++ trimEnd (trimStart cs) := by
      conv_lhs => rw [hcs]
      rw [trimEnd_append_of_ne_nil h]
    obtain ⟨v, hv, hsplit⟩ := exists_trimEnd_append_blanks (trimStart cs)
    have hself : trimStart (trimEnd (trimStart cs)) = trimEnd (trimStart cs) := by
      obtain ⟨c, rest, hrest⟩ := List.exists_cons_of_ne_nil h
      have hhead : (trimStart cs).head? = some c := by
        rw [hsplit, hrest]
        rfl
      have hc : isBlank c = false := isBlank_head_trimStart hhead
      rw [hrest, trimStart_cons_of_solid hc]
    rw [hend, trimStart_blanks_append hw, hself, trim]

theorem trim_infix (cs : List Char) : trim cs <:+: cs :=
  (Text.trimEnd_prefix _).isInfix.trans (trimStart_suffix cs).isInfix

theorem trimEnd_trim (cs : List Char) : trimEnd (trim cs) = trim cs :=
  trimEnd_trimEnd _

theorem trimStart_trim (cs : List Char) : trimStart (trim cs) = trim cs := by
  rw [trim_eq_trimStart_trimEnd, trimStart_trimStart]

theorem trim_eq_self (hs : trimStart cs = cs) (he : trimEnd cs = cs) : trim cs = cs := by
  rw [trim, hs, he]

theorem trim_trim (cs : List Char) : trim (trim cs) = trim cs :=
  trim_eq_self (trimStart_trim cs) (trimEnd_trim cs)

/-- A text is what trimming leaves between two runs of blanks. -/
theorem exists_blanks_append_trim (cs : List Char) : ∃ v w, (∀ c ∈ v, isBlank c = true) ∧
    (∀ c ∈ w, isBlank c = true) ∧ cs = v ++ (trim cs ++ w) := by
  obtain ⟨v, hv, hstart⟩ := exists_blanks_append_trimStart cs
  obtain ⟨w, hw, hend⟩ := exists_trimEnd_append_blanks (trimStart cs)
  exact ⟨v, w, hv, hw, by rw [trim, ← hend, ← hstart]⟩

/-- A trimmed text ends in a character that is no blank. -/
theorem exists_concat_of_trim (h : trim cs = cs) (hne : cs ≠ []) :
    ∃ a c, cs = a ++ [c] ∧ isBlank c = false := by
  have hend : trimEnd cs = cs := by rw [← h, trimEnd_trim]
  obtain ⟨a, c, hcs⟩ := (List.eq_nil_or_concat cs).resolve_left hne
  rw [List.concat_eq_append] at hcs
  exact ⟨a, c, hcs, isBlank_getLast_of_trimEnd hend (by rw [hcs, List.getLast?_concat])⟩

/-- A text that ends in a character that is no blank is not blank. -/
theorem trimStart_concat_ne_nil (hc : isBlank c = false) : trimStart (cs ++ [c]) ≠ [] := by
  intro hnil
  have hblank : ∀ d ∈ cs ++ [c], isBlank d = true := by
    rw [← trim_eq_nil_iff, trim, hnil, trimEnd_nil]
  rw [hblank c (by simp)] at hc
  cases hc

end DocBlock.Text
