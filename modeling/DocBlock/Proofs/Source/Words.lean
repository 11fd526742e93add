import Mathlib.Data.List.TakeWhile
import DocBlock.Source.Lexer

/-! # The words of a text

The reader takes a word only when its spelling holds none of the marks that comments put around the
name of a parameter. No name holds such a mark, and neither does the way it is written
(`readName?_spec`), so no word is lost for that reason (`wordKind?_eq_none_iff`). -/

namespace DocBlock.Source

variable {n : Nat} {cs rest : List Char} {name name' : NameText}

/-! ## Characters -/

/-- A class of characters without the marks. -/
theorem isNameMark_eq_false {p : Char → Bool} (hp : ['[', ']', '=', '.'].any p = false) {c : Char}
    (hc : p c = true) : isNameMark c = false := by
  rw [← Bool.not_eq_true]
  intro hmark
  have hmem : c ∈ ['[', ']', '=', '.'] := by
    simpa [isNameMark, or_assoc] using hmark
  exact List.any_eq_false.1 hp c hmem hc

theorem isNameMark_of_isNameStart {c : Char} (h : isNameStart c = true) : isNameMark c = false :=
  isNameMark_eq_false (by decide) h

theorem isNameMark_of_isNamePart {c : Char} (h : isNamePart c = true) : isNameMark c = false :=
  isNameMark_eq_false (by decide) h

theorem isNameMark_of_isHexDigit {c : Char} (h : isHexDigit c = true) : isNameMark c = false :=
  isNameMark_eq_false (by decide) h

/-! ## Names -/

/-- A text that goes on with `rest` behind something without marks. -/
def Spells (cs rest : List Char) : Prop :=
  ∃ text, cs = text ++ rest ∧ ∀ c ∈ text, isNameMark c = false

namespace Spells

theorem refl (cs : List Char) : Spells cs cs :=
  ⟨[], rfl, fun _ hmem => absurd hmem List.not_mem_nil⟩

theorem append {text : List Char} (htext : ∀ c ∈ text, isNameMark c = false)
    (h : Spells cs rest) : Spells (text ++ cs) rest := by
  obtain ⟨more, rfl, hmore⟩ := h
  refine ⟨text ++ more, (List.append_assoc _ _ _).symm, ?_⟩
  intro c hc
  rcases List.mem_append.1 hc with hc | hc
  · exact htext c hc
  · exact hmore c hc

theorem cons {c : Char} (hc : isNameMark c = false) (h : Spells cs rest) : Spells (c :: cs) rest := by
  have hone : ∀ d ∈ [c], isNameMark d = false := by
    intro d hd
    rw [List.mem_singleton.1 hd]
    exact hc
  exact append hone h

end Spells

theorem spells_of_codePoint? {code : Nat} (h : codePoint? cs = some (code, rest)) : Spells cs rest := by
  unfold codePoint? at h
  split at h
  · rename_i cs
    dsimp only at h
    split at h
    · rename_i rest' hrest
      split at h
      · cases h
      · cases h
        have hdigits : ∀ c ∈ cs.takeWhile isHexDigit, isNameMark c = false := by
          intro c hc
          exact isNameMark_of_isHexDigit (List.mem_takeWhile_imp hc)
        have hcs : cs = cs.takeWhile isHexDigit ++ '\x7d' :: rest := by
          rw [← hrest, List.takeWhile_append_dropWhile]
        -- Braces and digits, none of which is a mark.
        refine .cons (by decide) ?_
        rw [hcs]
        exact .append hdigits (.cons (by decide) (.refl rest))
    · cases h
  · rename_i a b c d rest' _
    split at h
    · rename_i hall
      cases h
      have hdigits : ∀ e ∈ [a, b, c, d], isNameMark e = false := by
        intro e he
        exact isNameMark_of_isHexDigit (List.all_eq_true.1 hall e he)
      exact .append hdigits (.refl rest)
    · cases h
  · cases h

/-- Neither a name nor the way it is written holds a mark. -/
theorem readName_spec (hname : ∀ c ∈ name.chars, isNameMark c = false)
    (h : readName n name cs = some (name', rest)) :
    (∀ c ∈ name'.chars, isNameMark c = false) ∧ Spells cs rest := by
  induction n generalizing name cs with
  | zero =>
    cases h
    exact ⟨hname, .refl rest⟩
  | succ n ih =>
    have hmark : ∀ c, (if name.chars.isEmpty then isNameStart else isNamePart) c = true →
        isNameMark c = false := by
      intro c hc
      split at hc
      · exact isNameMark_of_isNameStart hc
      · exact isNameMark_of_isNamePart hc
    have hmore : ∀ c, isNameMark c = false → ∀ d ∈ c :: name.chars, isNameMark d = false := by
      intro c hc d hd
      rcases List.mem_cons.1 hd with rfl | hd
      · exact hc
      · exact hname d hd
    unfold readName at h
    dsimp only at h
    -- Which characters are accepted depends on whether the name is still empty; either way no mark is.
    generalize (if name.chars.isEmpty then isNameStart else isNamePart) = accepts at h hmark
    split at h
    · split at h
      · rename_i code rest' hcode
        split at h
        · rename_i hc
          obtain ⟨hchars, hspells⟩ := ih (hmore _ (hmark _ hc)) h
          obtain ⟨text, rfl, htext⟩ := spells_of_codePoint? hcode
          exact ⟨hchars, .cons (by decide) (.cons (by decide) (.append htext hspells))⟩
        · cases h
      · cases h
    · cases h
    · rename_i c rest' _ _
      split at h
      · rename_i hc
        obtain ⟨hchars, hspells⟩ := ih (hmore c (hmark c hc)) h
        exact ⟨hchars, .cons (hmark c hc) hspells⟩
      · cases h
        exact ⟨hname, .refl _⟩
    · cases h
      exact ⟨hname, .refl _⟩

theorem readName?_spec {text : String} {escaped : Bool}
    (h : readName? cs = some (text, escaped, rest)) :
    (∀ c ∈ text.toList, isNameMark c = false) ∧
      ∀ c ∈ cs.take (cs.length - rest.length), isNameMark c = false := by
  unfold readName? at h
  split at h
  · rename_i name rest' hread
    split at h
    · cases h
    · cases h
      obtain ⟨hchars, spelling, hcs, hspelling⟩ :=
        readName_spec (fun _ hmem => absurd hmem List.not_mem_nil) hread
      refine ⟨?_, ?_⟩
      · intro c hc
        rw [String.toList_ofList] at hc
        exact hchars c (List.mem_reverse.1 hc)
      · rw [hcs, List.length_append, Nat.add_sub_cancel, List.take_left]
        exact hspelling
  · cases h

/-! ## Words -/

theorem of?_eq_some {text : String} (h : ∀ c ∈ text.toList, isNameMark c = false) :
    Word.of? text = some ⟨text, h⟩ := by
  refine dif_pos (List.any_eq_false.2 ?_)
  intro c hc
  rw [h c hc]
  exact Bool.false_ne_true

/-- A name is a word unless it is a keyword that is never a name and has an escape behind its first
character. -/
theorem wordKind?_eq_none_iff {text : String} {escaped : Bool}
    (h : readName? cs = some (text, escaped, rest)) (inModule : Bool) :
    wordKind? inModule (if escaped then cs.take (cs.length - rest.length) else []) text escaped = none ↔
      isKeyword text = true ∧ escaped = true ∧
      Text.startsWith ['\\'] (cs.take (cs.length - rest.length)) = false ∧
      (reservedWords.contains text || (inModule && moduleReservedWords.contains text)) = true := by
  obtain ⟨htext, hspelling⟩ := readName?_spec h
  cases escaped with
  | false =>
    unfold wordKind?
    rw [of?_eq_some htext]
    by_cases hkeyword : isKeyword text = true <;> simp [hkeyword]
  | true =>
    rw [if_pos rfl]
    -- Only a keyword is taken as it is written.
    generalize cs.take (cs.length - rest.length) = spelling at hspelling
    have hwritten : ∀ c ∈ (String.ofList spelling).toList, isNameMark c = false := by
      rw [String.toList_ofList]
      exact hspelling
    unfold wordKind?
    rw [of?_eq_some htext, of?_eq_some hwritten]
    by_cases hkeyword : isKeyword text = true
    · by_cases hfirst : Text.startsWith ['\\'] spelling = true
      · simp [hkeyword, hfirst]
      · generalize (reservedWords.contains text ||
          (inModule && moduleReservedWords.contains text)) = reserved
        cases reserved <;> simp [hkeyword, hfirst]
    · simp [hkeyword]

end DocBlock.Source
