import DocBlock.Proofs.Text.Lines
import DocBlock.Comment.Basic
import DocBlock.Signature
import DocBlock.Source.Token

/-! # Names of parameters in comments

A comment may decorate the name of a parameter; `bareParamName` takes the decorations off. From a plain
name it takes off just what was put around it (`bareParamName_decorated`), so every spelling under
which a parameter is looked for has its name as the bare one. -/

namespace DocBlock

open DocBlock.Source (isNameMark)

variable {name : String} {dots body tail : List Char}

/-- A name without any mark that comments decorate the name of a parameter with. -/
def PlainName (name : String) : Prop :=
  ∀ c ∈ name.toList, isNameMark c = false

theorem PlainName.ne {c : Char} (h : PlainName name) (hc : c ∈ name.toList) :
    c ≠ '[' ∧ c ≠ ']' ∧ c ≠ '=' ∧ c ≠ '.' := by
  have hmark := h c hc
  simp only [isNameMark, Bool.or_eq_false_iff, beq_eq_false_iff_ne, and_assoc] at hmark
  exact hmark

/-! ## Taking decorations off -/

/-- Only the repeat marker before a plain name is taken off. -/
theorem dropMarkers_append (hname : PlainName name) (hdots : dots = [] ∨ dots = "...".toList) {n : Nat}
    (hn : dots.length ≤ n) : bareParamName.dropMarkers n (dots ++ name.toList) = name.toList := by
  have hnone : Text.after? "...".toList name.toList = none := by
    rw [Option.eq_none_iff_forall_ne_some]
    intro rest hrest
    have hmem : '.' ∈ name.toList := by
      rw [Text.after?_eq_some_iff.1 hrest]
      exact List.mem_cons_self
    exact (hname.ne hmem).2.2.2 rfl
  have hbare : ∀ n, bareParamName.dropMarkers n name.toList = name.toList := by
    intro n
    cases n with
    | zero => rfl
    | succ n => rw [bareParamName.dropMarkers, hnone]
  rcases hdots with rfl | rfl
  · exact hbare n
  · obtain ⟨n, rfl⟩ : ∃ k, n = k + 1 := ⟨n - 1, by simp at hn; omega⟩
    have hsome : Text.after? "...".toList ("...".toList ++ name.toList) = some name.toList :=
      Text.after?_eq_some_iff.2 rfl
    rw [bareParamName.dropMarkers, hsome]
    exact hbare n

/-- What stands behind a plain name ends it. -/
def EndsName (tail : List Char) : Prop :=
  (∀ c ∈ tail, c = ']') ∨ tail.head? = some '='

theorem dropWhile_open {marks : List Char} (hmarks : ∀ c ∈ marks, c = '[') (hbody : ∀ c ∈ body, c ≠ '[')
    (htail : EndsName tail) :
    (marks ++ (body ++ tail)).dropWhile (· == '[') = body ++ tail := by
  rw [List.dropWhile_append_of_pos (by simpa using hmarks)]
  cases hcons : body ++ tail with
  | nil => rfl
  | cons c cs =>
    refine List.dropWhile_cons_of_neg ?_
    have hc : c ≠ '[' := by
      cases body with
      | nil =>
        rw [List.nil_append] at hcons
        rw [hcons] at htail
        rcases htail with hall | hhead
        · rw [hall c List.mem_cons_self]
          decide
        · rw [Option.some.inj hhead]
          decide
      | cons d body =>
        rw [List.cons_append] at hcons
        rw [← (List.cons.inj hcons).1]
        exact hbody d List.mem_cons_self
    simpa using hc

theorem rdropWhile_close (hbody : ∀ c ∈ body, c ≠ ']') (htail : EndsName tail) :
    ∃ rest, (body ++ tail).rdropWhile (· == ']') = body ++ rest ∧
      (rest = [] ∨ rest.head? = some '=') := by
  rcases htail with hall | hhead
  · refine ⟨[], ?_, .inl rfl⟩
    simp only [List.rdropWhile, List.reverse_append]
    rw [List.dropWhile_append_of_pos (by simpa using hall)]
    show List.rdropWhile _ body = body ++ []
    rw [List.append_nil, List.rdropWhile_eq_self_iff]
    intro hne
    simpa using hbody _ (List.getLast_mem hne)
  · obtain ⟨rest, rfl⟩ : ∃ rest, tail = '=' :: rest := by
      cases tail with
      | nil => simp at hhead
      | cons c rest => exact ⟨rest, by rw [Option.some.inj hhead]⟩
    suffices hkeep : ∃ rest', (body ++ '=' :: rest).rdropWhile (· == ']') = body ++ '=' :: rest' by
      obtain ⟨rest', hrest'⟩ := hkeep
      exact ⟨'=' :: rest', hrest', .inr rfl⟩
    -- Brackets are taken from the end, and at the latest the `=` stops that.
    induction rest using List.reverseRecOn with
    | nil => exact ⟨[], List.rdropWhile_concat_neg _ _ _ (by decide)⟩
    | append_singleton rest c ih =>
      rw [← List.cons_append, ← List.append_assoc]
      by_cases hc : c = ']'
      · rw [List.rdropWhile_concat_pos _ _ _ (by simp [hc])]
        exact ih rfl
      · rw [List.rdropWhile_concat_neg _ _ _ (by simp [hc])]
        exact ⟨rest ++ [c], by simp⟩

/-- Brackets around a plain name, a repeat marker before it and a default value behind it are taken
off. -/
theorem bareParamName_decorated (marks dots tail : List Char) (hname : PlainName name)
    (hmarks : ∀ c ∈ marks, c = '[') (hdots : dots = [] ∨ dots = "...".toList)
    (htail : EndsName tail) {written : String}
    (hwritten : written.toList = marks ++ (dots ++ name.toList ++ tail)) :
    bareParamName written = name := by
  have hbody : ∀ c ∈ dots ++ name.toList, c ≠ '[' ∧ c ≠ ']' ∧ c ≠ '=' := by
    intro c hc
    rcases List.mem_append.1 hc with hc | hc
    · rcases hdots with rfl | rfl
      · exact absurd hc List.not_mem_nil
      · obtain rfl : c = '.' := by simpa using hc
        decide
    · exact ⟨(hname.ne hc).1, (hname.ne hc).2.1, (hname.ne hc).2.2.1⟩
  obtain ⟨rest, hclosed, hrest⟩ := rdropWhile_close (fun c hc => (hbody c hc).2.1) htail
  have htake : (dots ++ name.toList ++ rest).takeWhile (· != '=') = dots ++ name.toList := by
    rw [List.takeWhile_append_of_pos (by simpa using fun c hc => (hbody c (by simpa using hc)).2.2)]
    rcases hrest with rfl | hhead
    · rw [List.takeWhile_nil, List.append_nil]
    · cases rest with
      | nil => simp at hhead
      | cons c rest => simp [Option.some.inj hhead]
  unfold bareParamName
  simp only [hwritten, dropWhile_open hmarks (fun c hc => (hbody c hc).1) htail]
  show String.ofList (bareParamName.dropMarkers
    ((dots ++ name.toList ++ tail).rdropWhile (· == ']')).length
    (((dots ++ name.toList ++ tail).rdropWhile (· == ']')).takeWhile (· != '='))) = name
  rw [hclosed, htake, dropMarkers_append hname hdots (by simp), String.ofList_toList]

/-! ## The spellings of a parameter -/

theorem endsName_nil : EndsName [] :=
  .inl fun _ hc => absurd hc List.not_mem_nil

theorem endsName_bracket : EndsName [']'] :=
  .inl fun _ hc => List.mem_singleton.1 hc

/-- Every spelling under which a parameter is looked for names that parameter. -/
theorem bareParamName_of_mem_paramSpellings (hname : PlainName name) {repeatable optional : Bool}
    {written : String} (h : written ∈ Comment.paramSpellings name repeatable optional) :
    bareParamName written = name := by
  have hopen : ∀ c ∈ ['['], c = '[' := by simp
  simp only [Comment.paramSpellings, List.mem_append, List.mem_singleton] at h
  rcases h with ((rfl | h) | h) | h
  · exact bareParamName_decorated [] [] [] hname (by simp) (.inl rfl) endsName_nil (by simp)
  · split at h
    · obtain rfl := List.mem_singleton.1 h
      exact bareParamName_decorated ['['] _ [']'] hname hopen (.inr rfl) endsName_bracket (by simp)
    · exact absurd h List.not_mem_nil
  · split at h
    · obtain rfl := List.mem_singleton.1 h
      exact bareParamName_decorated [] _ [] hname (by simp) (.inr rfl) endsName_nil (by simp)
    · exact absurd h List.not_mem_nil
  · split at h
    · obtain rfl := List.mem_singleton.1 h
      exact bareParamName_decorated ['['] [] [']'] hname hopen (.inl rfl) endsName_bracket (by simp)
    · exact absurd h List.not_mem_nil

/-- A tag that documents a parameter together with its default value names that parameter. -/
theorem bareParamName_of_isDefaultedParam (hname : PlainName name) {tag : Tag}
    (h : Comment.isDefaultedParam name tag = true) :
    tag.kind = "param" ∧ tag.name.map bareParamName = some name := by
  rw [Comment.isDefaultedParam, Bool.and_eq_true, beq_iff_eq] at h
  refine ⟨h.1, ?_⟩
  cases hwritten : tag.name with
  | none =>
    rw [hwritten] at h
    exact absurd h.2 (by simp)
  | some written =>
    have hstarts := h.2
    rw [hwritten, Option.any_some, Text.startsWith, Option.isSome_iff_exists] at hstarts
    obtain ⟨rest, hrest⟩ := hstarts
    rw [Text.after?_eq_some_iff] at hrest
    rw [Option.map_some, Option.some_inj]
    refine bareParamName_decorated ['['] [] ('=' :: rest) hname (by simp) (.inl rfl) (.inr rfl) ?_
    simpa [String.toList_append] using hrest

end DocBlock
