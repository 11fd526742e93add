import DocBlock.Proofs.TypeName.Spelling

/-! # Documentation spellings as spellings

The documentation spelling of a derivation is itself a type name. It is the spelling of the derivation
in which an array is the name `Array.` with its element as argument, a name with arguments ends in a dot
and a name without arguments does not (`Derivation.doc_eq_spelling_documented`). What holds of all names
of a derivation carries over to that one (`Derivation.Each.documented`), and texts that stand in neither
delimiters nor blanks stand in a spelling only inside a name (`exists_name_of_isInfix`). -/

namespace DocBlock.TypeName

open Shape (isDelimiter dropDot)

variable {p : Part} {c : Char} {cs w : List Char} {ts : List Token}

/-! ## The derivation of the documentation spelling -/

namespace Derivation

/-- A type that is one primary. -/
def alone (primary : Derivation .primary) : Derivation .union :=
  union (arrayed primary 0) noMember

/-- A primary without the parentheses directly around it. -/
def bare : Derivation .primary → Derivation .union
  | parens inner => inner
  | primary => alone primary

/-- The name `Array.` with an argument. -/
def arrayName (element : Derivation .union) : Derivation .primary :=
  .applied "Array.".toList element noArgument

/-- A type in some arrays, each of which is a name with an argument. -/
def inArrayNames : Nat → Derivation .union → Derivation .union
  | 0, element => element
  | n + 1, element => alone (arrayName (inArrayNames n element))

/-- The derivation of the documentation spelling. -/
def documented : {p : Part} → Derivation p → Derivation p
  | _, union first others => union first.documented others.documented
  | _, noMember => noMember
  | _, member next others => member next.documented others.documented
  | _, arrayed primary 0 => arrayed primary.documented 0
  | _, arrayed primary (pairs + 1) =>
    arrayed (arrayName (inArrayNames pairs primary.documented.bare)) 0
  | _, parens inner => parens inner.documented
  | _, name text => name (dropDot text)
  | _, .applied text first others =>
    .applied (dropDot text ++ ['.']) first.documented others.documented
  | _, noArgument => noArgument
  | _, argument next others => argument next.documented others.documented

section Each

variable {kind kind' argued argued' : List Char → Prop} {pairs : Nat → Prop} {d : Derivation p}

theorem Each.bare {primary : Derivation .primary} (h : primary.Each kind argued (· = 0)) :
    primary.bare.Each kind argued (· = 0) := by
  cases primary with
  | parens inner => exact h
  | name text => exact ⟨⟨h, rfl⟩, trivial⟩
  | applied text first others => exact ⟨⟨h, rfl⟩, trivial⟩

theorem Each.inArrayNames {element : Derivation .union} (h : element.Each kind argued (· = 0))
    (harray : argued "Array.".toList) (n : Nat) :
    (inArrayNames n element).Each kind argued (· = 0) := by
  induction n with
  | zero => exact h
  | succ n ih => exact ⟨⟨⟨harray, ih, trivial⟩, rfl⟩, trivial⟩

/-- What holds of all names holds of them in the documentation spelling. -/
theorem Each.documented (h : d.Each kind argued pairs) (hkind : ∀ w, kind w → kind' (dropDot w))
    (hargued : ∀ w, argued w → argued' (dropDot w ++ ['.'])) (harray : argued' "Array.".toList) :
    d.documented.Each kind' argued' (· = 0) := by
  induction d with
  | union first others ihfirst ihothers => exact ⟨ihfirst h.1, ihothers h.2⟩
  | noMember => trivial
  | member next others ihnext ihothers => exact ⟨ihnext h.1, ihothers h.2⟩
  | arrayed primary n ih =>
    cases n with
    | zero => exact ⟨ih h.1, rfl⟩
    | succ n => exact ⟨⟨harray, (ih h.1).bare.inArrayNames harray n, trivial⟩, rfl⟩
  | parens inner ih => exact ih h
  | name text => exact hkind text h
  | applied text first others ihfirst ihothers =>
    exact ⟨hargued text h.1, ihfirst h.2.1, ihothers h.2.2⟩
  | noArgument => trivial
  | argument next others ihnext ihothers => exact ⟨ihnext h.1, ihothers h.2⟩

theorem Each.of_mem (h : d.Each kind kind pairs)
    (hw : .name w ∈ d.tokens) : kind w := by
  have hbrackets : ∀ n, Token.name w ∉ bracketPairs n := by
    intro n
    induction n with
    | zero => exact List.not_mem_nil
    | succ n ih => simpa [bracketPairs] using ih
  induction d with
  | union first others ihfirst ihothers =>
    rcases List.mem_append.1 hw with hw | hw
    · exact ihfirst h.1 hw
    · exact ihothers h.2 hw
  | noMember => exact absurd hw List.not_mem_nil
  | member next others ihnext ihothers =>
    simp only [tokens, List.mem_cons, List.mem_append, reduceCtorEq, false_or] at hw
    exact hw.elim (ihnext h.1) (ihothers h.2)
  | arrayed primary n ih =>
    rcases List.mem_append.1 hw with hw | hw
    · exact ih h.1 hw
    · exact absurd hw (hbrackets n)
  | parens inner ih =>
    simp only [tokens, List.mem_cons, List.mem_append, reduceCtorEq, false_or, List.not_mem_nil,
      or_false] at hw
    exact ih h hw
  | name text =>
    simp only [tokens, List.mem_singleton, Token.name.injEq] at hw
    rw [hw]
    exact h
  | applied text first others ihfirst ihothers =>
    simp only [tokens, List.mem_cons, List.mem_append, Token.name.injEq, reduceCtorEq, false_or,
      List.not_mem_nil, or_false] at hw
    rcases hw with rfl | hw | hw
    · exact h.1
    · exact ihfirst h.2.1 hw
    · exact ihothers h.2.2 hw
  | noArgument => exact absurd hw List.not_mem_nil
  | argument next others ihnext ihothers =>
    simp only [tokens, List.mem_cons, List.mem_append, reduceCtorEq, false_or] at hw
    exact hw.elim (ihnext h.1) (ihothers h.2)

end Each

/-! ## The documentation spelling is a spelling -/

theorem doc_alone (primary : Derivation .primary) : (alone primary).doc = primary.doc := by
  rw [alone, doc, doc_bare, doc, List.append_nil]

theorem doc_arrayName (element : Derivation .union) :
    (arrayName element).doc = "Array.<".toList ++ element.doc ++ ">".toList := by
  have hname : dropDot "Array.".toList ++ ".<".toList = "Array.<".toList := by decide
  rw [arrayName, doc, doc, hname, List.append_nil]

theorem doc_inArrayNames (n : Nat) (element : Derivation .union) :
    (inArrayNames n element).doc = inArrays n element.doc := by
  induction n with
  | zero => rfl
  | succ n ih => rw [inArrayNames, doc_alone, doc_arrayName, ih, inArrays_succ]

/-- The documentation spelling is its own documentation spelling. -/
theorem doc_documented {argued : List Char → Prop} {pairs : Nat → Prop} {d : Derivation p}
    (h : d.Each (fun w => w.getLast? ≠ some '.') argued pairs) : d.documented.doc = d.doc := by
  induction d with
  | union first others ihfirst ihothers => rw [documented, doc, ihfirst h.1, ihothers h.2, doc]
  | noMember => rfl
  | member next others ihnext ihothers => rw [documented, doc, ihnext h.1, ihothers h.2, doc]
  | arrayed primary n ih =>
    have hprimary := ih h.1
    cases n with
    | zero => rw [documented, doc_bare, doc_bare, hprimary]
    | succ n =>
      rw [documented, doc_bare, doc_arrayName, doc_inArrayNames]
      cases primary with
      | parens inner =>
        -- The parentheses are gone on both sides, so they come off the induction hypothesis too.
        rw [documented, doc, doc, List.append_cancel_right_eq, List.append_cancel_left_eq]
          at hprimary
        rw [documented, bare, hprimary, doc, inArrays_succ]
      | name text =>
        rw [documented] at hprimary ⊢
        rw [bare, doc_alone, hprimary]
        · rfl
        · rintro inner ⟨⟩
      | applied text first others =>
        rw [documented] at hprimary ⊢
        rw [bare, doc_alone, hprimary]
        · rfl
        · rintro inner ⟨⟩
  | parens inner ih => rw [documented, doc, ih h, doc]
  | name text => rw [documented, doc, doc, dropDot_of_undotted h, dropDot_of_undotted h]
  | applied text first others ihfirst ihothers =>
    rw [documented, doc, dropDot_append_dot, ihfirst h.2.1, ihothers h.2.2, doc]
  | noArgument => rfl
  | argument next others ihnext ihothers => rw [documented, doc, ihnext h.1, ihothers h.2, doc]

/-- Without brackets, and with dots behind the names with arguments and behind no others, source and
documentation are spelled alike. -/
theorem doc_eq_spelling {d : Derivation p}
    (h : d.Each (fun w => w.getLast? ≠ some '.') (fun w => w.getLast? = some '.') (· = 0)) :
    d.doc = d.spelling := by
  unfold spelling
  induction d with
  | union first others ihfirst ihothers =>
    rw [doc, ihfirst h.1, ihothers h.2, tokens, spellingOf_append]
  | noMember => rfl
  | member next others ihnext ihothers =>
    rw [doc, ihnext h.1, ihothers h.2, tokens, spellingOf_cons, spellingOf_append, List.append_assoc]
    rfl
  | arrayed primary n ih =>
    obtain ⟨hprimary, rfl⟩ := h
    rw [doc_bare, ih hprimary, tokens, bracketPairs, List.append_nil]
  | parens inner ih =>
    rw [doc, ih h, tokens, spellingOf_cons, spellingOf_append, List.append_assoc]
    rfl
  | name text =>
    rw [doc, dropDot_of_undotted h, tokens, spellingOf_cons, spellingOf_nil, List.append_nil]
    rfl
  | applied text first others ihfirst ihothers =>
    have hname : dropDot text ++ ".<".toList = text ++ "<".toList := by
      conv_rhs => rw [← dropDot_append_of_dotted h.1]
      rw [List.append_assoc]
      rfl
    rw [doc, hname, ihfirst h.2.1, ihothers h.2.2, tokens, spellingOf_cons, spellingOf_cons,
      spellingOf_append, spellingOf_append]
    simp only [List.append_assoc]
    rfl
  | noArgument => rfl
  | argument next others ihnext ihothers =>
    rw [doc, ihnext h.1, ihothers h.2, tokens, spellingOf_cons, spellingOf_append, List.append_assoc]
    rfl

/-! ## Derivations of proper names -/

/-- Whether all names of a derivation can be names of types and those without arguments do not end in a
dot. -/
def Proper (d : Derivation p) : Prop :=
  d.Each (fun w => IsName w ∧ w.getLast? ≠ some '.') IsName fun _ => True

end Derivation

theorem IsName.withDot (h : IsName w) : IsName (dropDot w ++ ['.']) := by
  by_cases hdot : w.getLast? = some '.'
  · rw [dropDot_append_of_dotted hdot]
    exact h
  · rw [dropDot_of_undotted hdot]
    have hstart : Text.trimStart w = w := by rw [← h.trimmed, Text.trimStart_trim]
    refine ⟨List.append_ne_nil_of_left_ne_nil h.ne_nil _, ?_, h.isRun.append (by decide)⟩
    rw [Text.trim, Text.trimStart_append_of_ne_nil (by rw [hstart]; exact h.ne_nil), hstart]
    exact Text.trimEnd_concat_of_solid (by decide)

theorem isName_array : IsName "Array.".toList where
  ne_nil := by decide
  trimmed := by decide
  isRun := by decide

namespace Derivation.Proper

variable {d : Derivation p}

theorem tokens_spelling (h : d.Proper) : TypeName.tokens d.spelling = d.tokens :=
  Derivation.tokens_spelling (Each.mono h (fun _ hw => hw.1) (fun _ hw => hw) fun _ hn => hn)

theorem doc_documented (h : d.Proper) : d.documented.doc = d.doc :=
  Derivation.doc_documented (Each.mono h (fun _ hw => hw.2) (fun _ hw => hw) fun _ hn => hn)

/-- In the documentation spelling the names without arguments are the same, and the others end in a
dot. -/
theorem each_documented (h : d.Proper) :
    d.documented.Each (fun w => IsName w ∧ w.getLast? ≠ some '.')
      (fun w => IsName w ∧ w.getLast? = some '.') (· = 0) := by
  refine Each.documented h (fun w hw => ?_) (fun w hw => ?_) ⟨isName_array, by decide⟩
  · rw [dropDot_of_undotted hw.2]
    exact hw
  · exact ⟨hw.withDot, by simp⟩

theorem documented (h : d.Proper) : d.documented.Proper :=
  h.each_documented.mono (fun _ hw => hw) (fun _ hw => hw.1) fun _ _ => trivial

/-- The documentation spelling is the spelling of a derivation. -/
theorem doc_eq_spelling_documented (h : d.Proper) : d.doc = d.documented.spelling := by
  rw [← h.doc_documented]
  exact doc_eq_spelling (h.each_documented.mono (fun _ hw => hw.2) (fun _ hw => hw.2) fun _ hn => hn)

theorem tokens_doc (h : d.Proper) : TypeName.tokens d.doc = d.documented.tokens := by
  rw [h.doc_eq_spelling_documented, h.documented.tokens_spelling]

end Derivation.Proper

/-! ## Texts inside names -/

/-- A pattern without delimiters and blanks stands in a text only inside a name. -/
theorem exists_name_of_isInfix {pattern : List Char} (hne : pattern ≠ []) (hrun : IsRun pattern)
    (hsolid : Text.IsSolid pattern) (h : pattern <:+: cs) :
    ∃ text, .name text ∈ tokens cs ∧ pattern <:+: text := by
  have hname : ∀ run, pattern <:+: run → ∃ text, .name text ∈ runTokens run ∧ pattern <:+: text := by
    intro run hinside
    have htrim := Text.infix_trim hne hsolid hinside
    refine ⟨Text.trim run, ?_, htrim⟩
    rw [runTokens, if_neg]
    · exact List.mem_singleton_self _
    · intro hempty
      rw [List.isEmpty_iff.1 hempty] at htrim
      exact hne (List.infix_nil.1 htrim)
  induction cs using runs_induction with
  | last run hplain =>
    rw [tokens_run hplain]
    exact hname run h
  | more run c cs hplain hc ih =>
    have hmark : c ∉ pattern := fun hmem => by simp [hrun c hmem] at hc
    rw [tokens_run_append hplain hc]
    rcases Text.infix_or_infix_of_infix_append hmark h with hinside | hinside
    · obtain ⟨text, hmem, htext⟩ := hname run hinside
      exact ⟨text, List.mem_append_left _ hmem, htext⟩
    · obtain ⟨text, hmem, htext⟩ := ih hinside
      exact ⟨text, List.mem_append_right _ (List.mem_cons_of_mem _ hmem), htext⟩

end DocBlock.TypeName
