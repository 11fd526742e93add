import DocBlock.Proofs.Comment.InlineTags
import Mathlib.Data.List.Infix

/-! # The line that opens a tag

A word ends at the first blank, and a type at the brace that closes it. Both are stated for a word or
a type with anything behind it, so that the line of a tag can be read part by part. -/

namespace DocBlock.Comment

open DocBlock.Text (isBlank trimEnd trimStart)

variable {depth : Nat} {c : Char} {cs word type rest : List Char}

/-! ## Words -/

/-- Whether a text is empty or starts with a blank, so that a word can stand before it. -/
def endsWord (cs : List Char) : Prop :=
  ∀ c ∈ cs.head?, isBlank c = true

theorem takeWord_append (hword : ∀ c ∈ word, isBlank c = false) (hrest : endsWord rest) :
    takeWord (word ++ rest) = (word, rest) := by
  have hpos : ∀ c ∈ word, (!isBlank c) = true := fun c hc => by simp [hword c hc]
  have htail : rest.takeWhile (fun c => !isBlank c) = [] ∧
      rest.dropWhile (fun c => !isBlank c) = rest := by
    cases rest with
    | nil => exact ⟨rfl, rfl⟩
    | cons c rest =>
      have hc : isBlank c = true := hrest c rfl
      simp [hc]
  rw [takeWord, List.takeWhile_append_of_pos hpos, List.dropWhile_append_of_pos hpos, htail.1,
    htail.2, List.append_nil]

/-- A word is cut off at its end. -/
theorem takeWord_spec (h : takeWord cs = (word, rest)) :
    cs = word ++ rest ∧ (∀ c ∈ word, isBlank c = false) ∧ endsWord rest := by
  obtain ⟨rfl, rfl⟩ := Prod.mk.inj h
  refine ⟨List.takeWhile_append_dropWhile.symm, ?_, ?_⟩
  · intro c hc
    simpa using List.mem_takeWhile_imp hc
  · intro c hc
    have hhead := List.head?_dropWhile_not (fun c => !isBlank c) cs
    rw [Option.mem_def.1 hc] at hhead
    simpa using hhead

/-! ## Braces -/

/-- Whether a character opens or closes a group. -/
def isBrace (c : Char) : Bool :=
  c = '\x7b' || c = '\x7d'

theorem braceDepth_of_not_isBrace (h : isBrace c = false) (depth : Nat) :
    braceDepth depth c = depth := by
  simp only [isBrace, Bool.or_eq_false_iff, decide_eq_false_iff_not] at h
  rw [braceDepth, if_neg h.1, if_neg h.2]

/-- What stands behind the closing brace does not matter. -/
theorem closeBrace?_spec (h : closeBrace? depth cs = some (type, rest)) :
    cs = type ++ '\x7d' :: rest ∧
      ∀ other, closeBrace? depth (type ++ '\x7d' :: other) = some (type, other) := by
  induction cs generalizing depth type rest with
  | nil => simp [closeBrace?] at h
  | cons c cs ih =>
    rw [closeBrace?] at h
    split at h
    · rename_i hclose
      obtain ⟨rfl, rfl⟩ := Prod.mk.inj (Option.some.inj h)
      simp only [Bool.and_eq_true, decide_eq_true_eq] at hclose
      obtain ⟨rfl, rfl⟩ := hclose
      exact ⟨rfl, fun other => by simp [closeBrace?]⟩
    · rename_i hopen
      obtain ⟨⟨inside, rest'⟩, hinside, heq⟩ := Option.map_eq_some_iff.1 h
      obtain ⟨rfl, rfl⟩ := Prod.mk.inj heq
      obtain ⟨rfl, hother⟩ := ih hinside
      refine ⟨rfl, fun other => ?_⟩
      rw [List.cons_append, closeBrace?, if_neg hopen, hother]
      rfl

/-- Only the braces of a text decide whether a group is left open. -/
theorem closeBrace?_eq_none_iff_filter :
    closeBrace? depth cs = none ↔ closeBrace? depth (cs.filter isBrace) = none := by
  induction cs generalizing depth with
  | nil => rfl
  | cons c cs ih =>
    by_cases hc : isBrace c = true
    · rw [List.filter_cons_of_pos hc, closeBrace?, closeBrace?]
      split
      · simp
      · rw [Option.map_eq_none_iff, Option.map_eq_none_iff, ih]
    · rw [Bool.not_eq_true] at hc
      have hne : c ≠ '\x7d' := by rintro rfl; exact absurd hc (by decide)
      rw [List.filter_cons_of_neg (by simp [hc]), closeBrace?, braceDepth_of_not_isBrace hc]
      simp [hne, ih]

/-- Whether every group in a text is closed, and no brace closes a group that is not open. -/
def Balanced (cs : List Char) : Prop :=
  cs.count '\x7d' = cs.count '\x7b' ∧ ∀ front ∈ cs.inits, front.count '\x7d' ≤ front.count '\x7b'

instance (cs : List Char) : Decidable (Balanced cs) :=
  inferInstanceAs (Decidable (_ ∧ _))

/-- What one character does to the depth is what it adds to the braces that are counted. -/
theorem count_cons_braceDepth {c : Char} (hclose : c = '\x7d' → 0 < depth) (cs : List Char) :
    (c :: cs).count '\x7b' + depth + cs.count '\x7d' =
      cs.count '\x7b' + braceDepth depth c + (c :: cs).count '\x7d' := by
  by_cases hopen : c = '\x7b'
  · subst hopen
    simp [braceDepth]
    omega
  · by_cases hclosed : c = '\x7d'
    · subst hclosed
      have hdepth := hclose rfl
      simp [braceDepth]
      omega
    · simp [braceDepth, hopen, hclosed]

theorem closeBrace?_append_of_counts (htotal : type.count '\x7d' = type.count '\x7b' + depth)
    (hfront : ∀ front, front <+: type → front.count '\x7d' ≤ front.count '\x7b' + depth)
    (rest : List Char) : closeBrace? depth (type ++ '\x7d' :: rest) = some (type, rest) := by
  induction type generalizing depth with
  | nil =>
    have hdepth : depth = 0 := by simpa using htotal.symm
    simp [closeBrace?, hdepth]
  | cons c type ih =>
    -- A brace that closes the first one is not met inside the type.
    have hclose : c = '\x7d' → 0 < depth := by
      rintro rfl
      have hone := hfront ['\x7d'] ⟨type, rfl⟩
      simp at hone
      omega
    have htail : ∀ front, front <+: type →
        front.count '\x7d' ≤ front.count '\x7b' + braceDepth depth c := by
      intro front hpre
      have hcons := hfront (c :: front) (List.cons_prefix_cons.2 ⟨rfl, hpre⟩)
      have hcount := count_cons_braceDepth hclose front
      omega
    have hrest : type.count '\x7d' = type.count '\x7b' + braceDepth depth c := by
      have hcount := count_cons_braceDepth hclose type
      omega
    have hstay : (c = '\x7d' && depth = 0) = false := by
      rw [Bool.and_eq_false_imp, decide_eq_true_eq, decide_eq_false_iff_not]
      intro hc
      have hdepth := hclose hc
      omega
    rw [List.cons_append, closeBrace?, hstay, ih hrest htail]
    simp

/-- A balanced text is read as a type up to the brace behind it. -/
theorem Balanced.closeBrace? (h : Balanced type) (rest : List Char) :
    closeBrace? 0 (type ++ '\x7d' :: rest) = some (type, rest) := by
  refine closeBrace?_append_of_counts (by simpa using h.1) ?_ rest
  intro front hpre
  simpa using h.2 front ((List.mem_inits front type).2 hpre)

end DocBlock.Comment
