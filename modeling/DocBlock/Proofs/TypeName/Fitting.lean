import DocBlock.Naming
import DocBlock.Proofs.Comment.Fitting
import DocBlock.Proofs.TypeName.Reading
import DocBlock.TypeName.Format

/-! # Names that fit on a line

The spelling of a type name is put together from the names in it, with brackets, commas and bars between
them. Names that fit on a line therefore make a spelling that fits on a line (`fits_format`). The same
holds for a name with its first letter in upper case (`fits_capitalized`), and a name fits with quotes in
it when it fits without them (`fitsLine_of_unquoted`). -/

namespace DocBlock

variable {a b cs rest : List Char} {n : Nat}

namespace TypeName.Shape

/-! ## Shapes -/

mutual

/-- A shape whose names fit on a line. -/
def Fits : Shape → Prop
  | named name args => FitsLine name ∧ AllFit args
  | array element => Fits element
  | union members => AllFit members
  | paren inner => Fits inner

/-- Shapes whose names all fit on a line. -/
def AllFit : List Shape → Prop
  | [] => True
  | shape :: shapes => Fits shape ∧ AllFit shapes

end

mutual

theorem Fits.render : ∀ {shape : Shape}, shape.Fits → FitsLine shape.render
  | .named name [], h => by
    unfold Shape.Fits at h
    unfold Shape.render
    exact h.1
  | .named name (arg :: args), h => by
    unfold Shape.Fits at h
    unfold Shape.render
    have hargs : FitsLine (Text.join ", ".toList (Shape.renderAll (arg :: args))) :=
      FitsLine.join (AllFit.renderAll h.2) (by decide)
    exact (h.1.between hargs (by decide)).before (by decide)
  | .array (.paren inner), h => by
    unfold Shape.Fits Shape.Fits at h
    unfold Shape.render
    exact ((Fits.render h).behind (by decide)).before (by decide)
  | .array (.named name args), h => by
    unfold Shape.Fits at h
    unfold Shape.render
    exact ((Fits.render h).behind (by decide)).before (by decide)
  | .array (.array element), h => by
    unfold Shape.Fits at h
    unfold Shape.render
    exact ((Fits.render h).behind (by decide)).before (by decide)
  | .array (.union members), h => by
    unfold Shape.Fits at h
    unfold Shape.render
    exact ((Fits.render h).behind (by decide)).before (by decide)
  | .union members, h => by
    unfold Shape.Fits at h
    unfold Shape.render
    exact FitsLine.join (AllFit.renderAll h) (by decide)
  | .paren inner, h => by
    unfold Shape.Fits at h
    unfold Shape.render
    exact ((Fits.render h).behind (by decide)).before (by decide)

theorem AllFit.renderAll : ∀ {shapes : List Shape}, AllFit shapes →
    ∀ text ∈ Shape.renderAll shapes, FitsLine text
  | [], _, text, htext => by
    unfold Shape.renderAll at htext
    exact absurd htext List.not_mem_nil
  | shape :: shapes, h, text, htext => by
    unfold Shape.AllFit at h
    unfold Shape.renderAll at htext
    rcases List.mem_cons.1 htext with rfl | htext
    · exact Fits.render h.1
    · exact AllFit.renderAll h.2 text htext

end

/-! ## Reading shapes -/

/-- A reader that gives what `P` says and leaves an end of the text. -/
def Takes {α : Type} (P : α → Prop) (cs : List Char) (taken : Option (α × List Char)) : Prop :=
  ∀ a rest, taken = some (a, rest) → P a ∧ rest <:+ cs

namespace Takes

variable {α β : Type} {P : α → Prop} {Q : β → Prop} {taken : Option (α × List Char)}

theorem none : Takes P cs none := by
  rintro a rest ⟨⟩

theorem some {a : α} (ha : P a) (hrest : rest <:+ cs) : Takes P cs (some (a, rest)) := by
  rintro _ _ ⟨⟩
  exact ⟨ha, hrest⟩

theorem bind {f : α × List Char → Option (β × List Char)} (h : Takes P cs taken)
    (hf : ∀ a rest, P a → rest <:+ cs → Takes Q cs (f (a, rest))) : Takes Q cs (taken >>= f) := by
  cases taken with
  | none => exact .none
  | some result =>
    obtain ⟨ha, hrest⟩ := h result.1 result.2 rfl
    exact hf result.1 result.2 ha hrest

theorem mono (h : Takes P rest taken) (hrest : rest <:+ cs) : Takes P cs taken := by
  intro a left heq
  obtain ⟨ha, hleft⟩ := h a left heq
  exact ⟨ha, hleft.trans hrest⟩

end Takes

theorem suffix_of_eat? {token : Char} (h : eat? token cs = some rest) : rest <:+ cs := by
  have hsuffix := Text.trimStart_suffix cs
  rw [eat?] at h
  split at h
  · cases h
  · rename_i c tail htrim
    split at h
    · cases h
      rw [htrim] at hsuffix
      exact (List.suffix_cons c rest).trans hsuffix
    · cases h

theorem Takes.eat_bind {β : Type} {Q : β → Prop} {token : Char}
    {f : List Char → Option (β × List Char)} (hf : ∀ rest, rest <:+ cs → Takes Q cs (f rest)) :
    Takes Q cs (eat? token cs >>= f) := by
  cases htoken : eat? token cs with
  | none => exact .none
  | some rest => exact hf rest (suffix_of_eat? htoken)

theorem takes_name? (hcs : FitsLine cs) : Takes (fun name => FitsLine (dropDot name)) cs (name? cs) := by
  have htrim := Text.trimStart_suffix cs
  rw [name?]
  split
  · exact .none
  · refine .some (hcs.of_isInfix ?_) ((List.dropWhile_suffix _).trans htrim)
    refine (dropDot_isPrefix _).isInfix.trans ((Text.trimEnd_prefix _).isInfix.trans ?_)
    exact (List.takeWhile_prefix _).isInfix.trans htrim.isInfix

theorem fits_ofMembers {first : Shape} {others : List Shape} (hfirst : first.Fits)
    (hothers : AllFit others) : (ofMembers first others).Fits := by
  unfold ofMembers
  split
  · exact hfirst
  · unfold Fits AllFit
    exact ⟨hfirst, hothers⟩

/-- What the readers promise of a text of which every end fits on a line. -/
structure Readers (n : Nat) : Prop where
  union : ∀ cs, FitsLine cs → Takes Fits cs (union? n cs)
  members : ∀ cs, FitsLine cs → Takes AllFit cs (members? n cs)
  arrayed : ∀ cs, FitsLine cs → Takes Fits cs (arrayed? n cs)
  brackets : ∀ element cs, FitsLine cs → Fits element → Takes Fits cs (brackets? n element cs)
  primary : ∀ cs, FitsLine cs → Takes Fits cs (primary? n cs)
  arguments : ∀ cs, FitsLine cs → Takes AllFit cs (arguments? n cs)

theorem readers (n : Nat) : Readers n := by
  -- The readers call each other with less fuel, so the promises of all of them go into one induction.
  induction n with
  | zero =>
    refine ⟨?_, ?_, ?_, ?_, ?_, ?_⟩
    all_goals intros
    all_goals exact .none
  | succ n ih =>
    have hend : ∀ {cs rest : List Char}, FitsLine cs → rest <:+ cs → FitsLine rest :=
      fun hcs hrest => hcs.of_isInfix hrest.isInfix
    refine ⟨?_, ?_, ?_, ?_, ?_, ?_⟩
    · intro cs hcs
      rw [union?]
      refine (ih.arrayed cs hcs).bind fun first rest hfirst hrest => ?_
      refine ((ih.members rest (hend hcs hrest)).mono hrest).bind fun others last hothers hlast => ?_
      exact .some (fits_ofMembers hfirst hothers) hlast
    · intro cs hcs
      rw [members?]
      split
      · exact .some trivial List.suffix_rfl
      · rename_i rest hrest
        have hrest := suffix_of_eat? hrest
        refine ((ih.arrayed rest (hend hcs hrest)).mono hrest).bind fun member next hmember hnext => ?_
        refine ((ih.members next (hend hcs hnext)).mono hnext).bind fun others last hothers hlast => ?_
        exact .some ⟨hmember, hothers⟩ hlast
    · intro cs hcs
      rw [arrayed?]
      refine (ih.primary cs hcs).bind fun element rest helement hrest => ?_
      exact (ih.brackets element rest (hend hcs hrest) helement).mono hrest
    · intro element cs hcs helement
      rw [brackets?]
      split
      · exact .some helement List.suffix_rfl
      · rename_i rest hrest
        have hrest := suffix_of_eat? hrest
        refine Takes.mono (Takes.eat_bind fun next hnext => ?_) hrest
        exact (ih.brackets (array element) next (hend (hend hcs hrest) hnext) helement).mono hnext
    · intro cs hcs
      rw [primary?]
      split
      · rename_i rest hrest
        have hrest := suffix_of_eat? hrest
        refine ((ih.union rest (hend hcs hrest)).mono hrest).bind fun inner next hinner hnext => ?_
        refine Takes.mono (Takes.eat_bind fun last hlast => ?_) hnext
        exact .some hinner hlast
      · refine (takes_name? hcs).bind fun name rest hname hrest => ?_
        dsimp only
        split
        · exact .some ⟨hname, trivial⟩ hrest
        · rename_i inside hinside
          have hinside := (suffix_of_eat? hinside).trans hrest
          refine ((ih.union inside (hend hcs hinside)).mono hinside).bind
            fun first next hfirst hnext => ?_
          refine ((ih.arguments next (hend hcs hnext)).mono hnext).bind
            fun others last hothers hlast => ?_
          refine Takes.mono (Takes.eat_bind fun final hfinal => ?_) hlast
          exact .some ⟨hname, hfirst, hothers⟩ hfinal
    · intro cs hcs
      rw [arguments?]
      split
      · exact .some trivial List.suffix_rfl
      · rename_i rest hrest
        have hrest := suffix_of_eat? hrest
        refine ((ih.union rest (hend hcs hrest)).mono hrest).bind fun arg next harg hnext => ?_
        refine ((ih.arguments next (hend hcs hnext)).mono hnext).bind
          fun others last hothers hlast => ?_
        exact .some ⟨harg, hothers⟩ hlast

theorem fits_parse? (hcs : FitsLine cs) {shape : Shape} (h : parse? cs = some shape) : shape.Fits := by
  rw [parse?] at h
  split at h
  · cases h
  · rename_i found rest hfound
    split at h
    · obtain rfl := Option.some.inj h
      exact ((readers _).union cs hcs found rest hfound).1
    · cases h

end TypeName.Shape

/-! ## Spelling -/

/-- Replacing a pattern by a text that can stand anywhere leaves a text that fits. What stands first is
the new text or what stood first before. -/
theorem fits_replaceFrom {pattern new : List Char} (hnew : Separates new) (hcs : FitsLine cs)
    (skip : Nat) :
    FitsLine (Text.replaceFrom pattern new skip cs) ∧
      ((Text.replaceFrom pattern new skip cs).head? = some '/' →
        skip = 0 → cs.head? = some '/') := by
  induction cs generalizing skip with
  | nil =>
    rw [Text.replaceFrom.eq_def]
    exact ⟨FitsLine.nil, fun h => absurd h (by simp)⟩
  | cons c cs ih =>
    have htail : FitsLine cs := hcs.of_isInfix (List.suffix_cons c cs).isInfix
    cases skip with
    | succ skip =>
      rw [Text.replaceFrom]
      exact ⟨(ih htail skip).1, fun _ h => absurd h (by simp)⟩
    | zero =>
      rw [Text.replaceFrom]
      split
      · refine ⟨(ih htail _).1.behind hnew, fun h => ?_⟩
        rw [List.head?_append_of_ne_nil _ hnew.ne_nil] at h
        exact absurd h hnew.head
      · obtain ⟨hrest, hstart⟩ := ih htail 0
        refine ⟨FitsLine.append (a := [c]) (hcs.of_isInfix (List.prefix_append [c] cs).isInfix) hrest ?_,
          fun h _ => h⟩
        -- A star in front of a slash would have been there before.
        by_contra hmeet
        rw [not_or, not_not, not_not] at hmeet
        obtain ⟨hstar, hslash⟩ := hmeet
        have hbefore := blockEnd_prefix_cons.2 ⟨Option.some.inj hstar, hstart hslash rfl⟩
        exact hcs.unclosed hbefore.isInfix

namespace TypeName

theorem fits_spell (h : FitsLine cs) : FitsLine (spell cs) := by
  have hshape : FitsLine ((Shape.parse? cs).elim cs Shape.render) := by
    cases hparse : Shape.parse? cs with
    | none => exact h
    | some shape => exact (Shape.fits_parse? h hparse).render
  exact (fits_replaceFrom (by decide) hshape 0).1

theorem infix_of_arrayElement? {element : List Char} (h : arrayElement? cs = some element) :
    element <:+: cs := by
  rw [arrayElement?, Option.bind_eq_bind, Option.bind_eq_some_iff] at h
  obtain ⟨rest, hrest, h⟩ := h
  rw [Text.after?_eq_some_iff] at hrest
  split at h
  · obtain rfl := Option.some.inj h
    rw [hrest]
    exact (List.dropLast_prefix rest).isInfix.trans (List.suffix_append _ rest).isInfix
  · cases h

theorem fits_formatChars (h : FitsLine cs) : FitsLine (formatChars cs) := by
  induction hlength : cs.length using Nat.strongRecOn generalizing cs with
  | ind n ih =>
    rw [formatChars]
    split
    · decide
    · split
      · rename_i rest hmarked
        have htext := Text.after?_eq_some_iff.1 hmarked
        have hrest : FitsLine rest := by
          refine h.trim.of_isInfix ?_
          rw [htext]
          exact (List.suffix_append _ rest).isInfix
        have hshorter : rest.length < n := by
          have hle := length_trim_le cs
          rw [htext, List.length_append] at hle
          have hmarker : "...".toList.length = 3 := rfl
          omega
        have hinner := ih rest.length hshorter hrest rfl
        refine FitsLine.behind ?_ (by decide)
        cases helement : arrayElement? (formatChars rest) with
        | none => exact hinner
        | some element => exact hinner.of_isInfix (infix_of_arrayElement? helement)
      · exact fits_spell h.trim

/-- The documentation spelling of a type name that fits on a line fits on a line. -/
theorem fits_format {text : String} (h : FitsLine text.toList) : FitsLine (format text).toList := by
  rw [format, String.toList_ofList]
  exact fits_formatChars h

end TypeName

/-! ## Upper case and quotes -/

/-- Whether a character takes part in the end of a line or of a block. -/
def isEnding (c : Char) : Bool :=
  c == '\n' || c == '*' || c == '/'

theorem isEnding_ofNat (h : 47 < n) : isEnding (Char.ofNat n) = false := by
  rw [Char.ofNat]
  by_cases hvalid : n.isValidChar
  · rw [dif_pos hvalid]
    have hcode : (Char.ofNatAux n hvalid).toNat = n := rfl
    generalize Char.ofNatAux n hvalid = c at hcode ⊢
    simp only [isEnding, Bool.or_eq_false_iff, beq_eq_false_iff_ne]
    refine ⟨⟨?_, ?_⟩, ?_⟩
    all_goals
      intro hc
      rw [hc] at hcode
      have : n ≤ 47 := by rw [← hcode]; decide
      omega
  · rw [dif_neg hvalid]
    rfl

namespace Text

theorem isEnding_toUpper (h : n < 128) :
    (Char.ofNat n).toUpper = Char.ofNat n ∨ isEnding (Char.ofNat n).toUpper = false := by
  revert n
  decide

/-- Upper case letters end no line and no block. -/
theorem uppercase_eq_or (c : Char) :
    uppercase c = [c] ∨ uppercase c ≠ [] ∧ ∀ d ∈ uppercase c, isEnding d = false := by
  rw [uppercase]
  split
  · rename_i hascii
    have hcases := isEnding_toUpper hascii
    rw [Char.ofNat_toNat] at hcases
    rcases hcases with hsame | hending
    · exact .inl (by rw [hsame])
    · refine .inr ⟨List.cons_ne_nil _ _, ?_⟩
      intro d hd
      rw [List.mem_singleton.1 hd]
      exact hending
  · split
    · rename_i codes hcodes
      obtain ⟨before, after, htable, -⟩ := List.lookup_eq_some_iff.1 hcodes
      have hlong : ∀ entry ∈ longUppercase, entry.2 ≠ [] ∧ ∀ code ∈ entry.2, 47 < code := by decide
      obtain ⟨hne, hcode⟩ := hlong (c.toNat, codes) (by rw [htable]; simp)
      refine .inr ⟨fun hnil => hne (List.map_eq_nil_iff.1 hnil), ?_⟩
      intro d hd
      obtain ⟨code, hmem, rfl⟩ := List.mem_map.1 hd
      exact isEnding_ofNat (hcode code hmem)
    · split
      · rename_i run hrun
        have hruns : ∀ run ∈ caseRuns, 47 < (run.lo : Int) + run.distance := by decide +kernel
        have hlow := hruns run (List.mem_of_find?_eq_some hrun)
        have hcovers := List.find?_some hrun
        simp only [CaseRun.covers, Bool.and_eq_true, decide_eq_true_eq] at hcovers
        refine .inr ⟨List.cons_ne_nil _ _, ?_⟩
        intro d hd
        rw [List.mem_singleton.1 hd]
        exact isEnding_ofNat (by omega)
      · exact .inl rfl

end Text

theorem fitsLine_of_isEnding (h : ∀ c ∈ cs, isEnding c = false) : FitsLine cs where
  oneLine hmem := absurd (h _ hmem) (by decide)
  unclosed hclosed := absurd (h '*' (hclosed.subset (by decide))) (by decide)

theorem fits_capitalize (h : FitsLine cs) : FitsLine (Text.capitalize cs) := by
  cases cs with
  | nil => exact h
  | cons c cs =>
    rw [Text.capitalize]
    rcases Text.uppercase_eq_or c with hsame | ⟨-, hletters⟩
    · rw [hsame]
      exact h
    · refine (fitsLine_of_isEnding hletters).append ?_ (.inl ?_)
      · exact h.of_isInfix (List.suffix_cons c cs).isInfix
      · intro hlast
        exact absurd (hletters '*' (List.mem_of_getLast? hlast)) (by decide)

/-- Capitalising a text does not put a slash at its start. -/
theorem head?_capitalize (h : cs.head? ≠ some '/') : (Text.capitalize cs).head? ≠ some '/' := by
  cases cs with
  | nil => exact h
  | cons c cs =>
    rw [Text.capitalize]
    rcases Text.uppercase_eq_or c with hsame | ⟨hne, hletters⟩
    · rw [hsame]
      exact h
    · intro hhead
      rw [List.head?_append_of_ne_nil _ hne] at hhead
      exact absurd (hletters '/' (List.mem_of_head? hhead)) (by decide)

namespace Tree

theorem fits_capitalized {name : String} (h : FitsLine name.toList) :
    FitsLine (capitalized name).toList := by
  rw [capitalized, String.toList_ofList]
  exact fits_capitalize h

/-- Quotes in a text do not bring a line feed or an end of a block into it. -/
theorem fitsLine_of_unquoted {name : String} (h : FitsLine (unquoted name).toList) :
    FitsLine name.toList := by
  rw [unquoted, String.toList_ofList] at h
  refine ⟨fun hmem => h.oneLine (List.mem_filter.2 ⟨hmem, by decide⟩), ?_⟩
  rintro ⟨before, after, heq⟩
  apply h.unclosed
  refine ⟨before.filter (· != '"'), after.filter (· != '"'), ?_⟩
  rw [← heq, List.filter_append, List.filter_append]
  rfl

end Tree

end DocBlock
