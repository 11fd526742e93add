import DocBlock.Proofs.Text.Replace
import DocBlock.Proofs.TypeName.Documented
import DocBlock.TypeName.Format
import Mathlib.Data.List.Infix

/-! # Source spellings become documentation spellings

Formatting reads a type name and renders its shape, so every spelling of a derivation is formatted as its
documentation spelling, apart from queries, which become links (`formatChars_of_tokens`). A repeat marker
in front of an array takes the place of the array; in front of a union it leaves all members as they are,
because a union is no array from end to end (`arrayElement?_bar`). The main statement is
`format_spellings`. -/

namespace DocBlock.TypeName

open Shape (isDelimiter dropDot)

variable {p : Part} {c : Char} {a b cs rest run w : List Char} {ts : List Token} {n : Nat}

/-! ## Trimming and the repeat marker -/

theorem tokens_trimEnd (cs : List Char) : tokens (Text.trimEnd cs) = tokens cs := by
  obtain ⟨w, hw, hcs⟩ := Text.exists_trimEnd_append_blanks cs
  have hbehind : ∀ text, tokens (text ++ w) = tokens text := by
    intro text
    induction text using runs_induction with
    | last run hrun =>
      rw [tokens_run (hrun.append (isRun_blanks hw)), runTokens_append_blanks hw, tokens_run hrun]
    | more run c cs hrun hc ih =>
      rw [List.append_assoc, List.cons_append, tokens_run_append hrun hc, ih,
        tokens_run_append hrun hc]
  conv_rhs => rw [hcs]
  rw [hbehind]

theorem tokens_trim (cs : List Char) : tokens (Text.trim cs) = tokens cs := by
  rw [Text.trim, tokens_trimEnd, tokens_trimStart]

/-- Whether some tokens start with a name that a repeat marker stands in front of. -/
def Repeated (ts : List Token) : Prop :=
  ∃ text, ts.head? = some (.name text) ∧ "...".toList <+: text

theorem repeated_append (hne : ts ≠ []) (others : List Token) :
    Repeated (ts ++ others) ↔ Repeated ts := by
  rw [Repeated, Repeated, List.head?_append_of_ne_nil _ hne]

theorem trim_marker_append (cs : List Char) :
    Text.trim ("...".toList ++ cs) = "...".toList ++ Text.trimEnd cs := by
  have hstart : Text.trimStart "...".toList = "...".toList := by decide
  have hend : Text.trimEnd "...".toList = "...".toList := by decide
  rw [Text.trim, Text.trimStart_append_of_ne_nil (by rw [hstart]; decide), hstart]
  by_cases hblank : Text.trimEnd cs = []
  · rw [Text.trimEnd_append_blanks (Text.trimEnd_eq_nil_iff.1 hblank), hend, hblank, List.append_nil]
  · exact Text.trimEnd_append_of_ne_nil hblank

theorem runTokens_marker_append (run : List Char) :
    runTokens ("...".toList ++ run) = [.name ("...".toList ++ Text.trimEnd run)] := by
  rw [runTokens, trim_marker_append, if_neg (by simp)]

/-- A text behind a repeat marker is part of the first name. -/
theorem repeated_of_marker (rest : List Char) : Repeated (tokens ("...".toList ++ rest)) := by
  have hdots : IsRun "...".toList := by decide
  induction rest using runs_induction with
  | last run hrun =>
    rw [tokens_run (hdots.append hrun), runTokens_marker_append]
    exact ⟨_, rfl, List.prefix_append _ _⟩
  | more run c cs hrun hc _ =>
    rw [← List.append_assoc, tokens_run_append (hdots.append hrun) hc, runTokens_marker_append]
    exact ⟨_, rfl, List.prefix_append _ _⟩

theorem name_of_head?_runTokens (h : (runTokens run).head? = some (.name w)) : w = Text.trim run := by
  rw [runTokens] at h
  split at h
  · cases h
  · cases h
    rfl

theorem head?_tokens_run_append (hrun : IsRun run) (hc : isDelimiter c = true)
    (h : (tokens (run ++ c :: cs)).head? = some (.name w)) : (runTokens run).head? = some (.name w) := by
  rw [tokens_run_append hrun hc] at h
  rw [runTokens] at h ⊢
  split
  · rename_i hblank
    rw [if_pos hblank] at h
    cases h
  · rename_i hblank
    rw [if_neg hblank] at h
    exact h

/-- What starts with a run of tokens starts with the text of its first name. -/
theorem head?_tokens_isPrefix (h : (tokens cs).head? = some (.name w)) : w <+: Text.trim cs := by
  induction cs using runs_induction with
  | last run hrun =>
    rw [tokens_run hrun] at h
    obtain rfl := name_of_head?_runTokens h
    exact List.prefix_rfl
  | more run c cs hrun hc _ =>
    have hfirst := head?_tokens_run_append hrun hc h
    have hsolid := isBlank_of_isDelimiter hc
    have hstart : Text.trimStart run ≠ [] := by
      intro hnil
      have hblank : Text.trim run = [] := by rw [Text.trim, hnil, Text.trimEnd_nil]
      rw [runTokens, hblank] at hfirst
      cases hfirst
    have hend : Text.trimEnd (c :: cs) ≠ [] := by
      intro hnil
      have hblank := Text.trimEnd_eq_nil_iff.1 hnil c List.mem_cons_self
      rw [hsolid] at hblank
      cases hblank
    rw [name_of_head?_runTokens hfirst, Text.trim, Text.trim,
      Text.trimStart_append_of_ne_nil hstart, Text.trimEnd_append_of_ne_nil hend]
    exact (Text.trimEnd_prefix _).trans (List.prefix_append _ _)

/-- The tokens of a text start with a marked name exactly when the text starts with the marker. -/
theorem repeated_tokens_iff : Repeated (tokens cs) ↔ "...".toList <+: Text.trim cs := by
  constructor
  · rintro ⟨text, hfirst, hmarker⟩
    exact hmarker.trans (head?_tokens_isPrefix hfirst)
  · rintro ⟨rest, hrest⟩
    rw [← tokens_trim, ← hrest]
    exact repeated_of_marker rest

theorem after?_marker_of_not_repeated (h : ¬ Repeated (tokens cs)) :
    Text.after? "...".toList (Text.trim cs) = none := by
  cases hafter : Text.after? "...".toList (Text.trim cs) with
  | none => rfl
  | some rest =>
    have hmarked : "...".toList <+: Text.trim cs := ⟨rest, (Text.after?_eq_some_iff.1 hafter).symm⟩
    exact absurd (repeated_tokens_iff.2 hmarked) h

/-- Dots behind names with arguments make no repeat marker. -/
theorem Derivation.repeated_of_documented {d : Derivation p} (h : Repeated d.documented.tokens) :
    Repeated d.tokens := by
  induction d with
  | union first others ihfirst _ =>
    rw [documented, tokens, repeated_append (tokens_arrayed_ne_nil _)] at h
    rw [tokens, repeated_append (tokens_arrayed_ne_nil _)]
    exact ihfirst h
  | noMember => exact h
  | member next others _ _ =>
    obtain ⟨text, hfirst, -⟩ := h
    cases hfirst
  | arrayed primary n ih =>
    cases n with
    | zero =>
      rw [documented, tokens, repeated_append (tokens_primary_ne_nil _)] at h
      rw [tokens, repeated_append (tokens_primary_ne_nil _)]
      exact ih h
    | succ n =>
      obtain ⟨text, hfirst, hmarker⟩ := h
      cases hfirst
      exact absurd hmarker (by decide)
  | parens inner _ =>
    obtain ⟨text, hfirst, -⟩ := h
    cases hfirst
  | name text =>
    obtain ⟨_, hfirst, hmarker⟩ := h
    cases hfirst
    exact ⟨text, rfl, hmarker.trans (dropDot_isPrefix text)⟩
  | applied text first others _ _ =>
    obtain ⟨_, hfirst, hmarker⟩ := h
    cases hfirst
    refine ⟨text, rfl, ?_⟩
    by_cases hdot : text.getLast? = some '.'
    · rwa [dropDot_append_of_dotted hdot] at hmarker
    · rw [dropDot_of_undotted hdot] at hmarker
      rcases List.prefix_concat_iff.1 hmarker with hwhole | hless
      · -- Three dots in all would leave two of them for the name.
        have hdots : ['.', '.'] = text := List.append_cancel_right hwhole
        rw [← hdots] at hdot
        exact absurd rfl hdot
      · exact hless
  | noArgument => exact h
  | argument next others _ _ =>
    obtain ⟨text, hfirst, -⟩ := h
    cases hfirst

/-! ## Formatting -/

/-- Type queries as inline links. -/
def linkQueries (cs : List Char) : List Char :=
  Text.replaceAll "typeof ".toList "@link ".toList cs

theorem trim_ne_nil_of_tokens (h : tokens cs ≠ []) : Text.trim cs ≠ [] := by
  intro hnil
  rw [← tokens_trim, hnil] at h
  exact h rfl

/-- Every spelling of a derivation is formatted as its documentation spelling with links in it. -/
theorem formatChars_of_tokens {d : Derivation .union} (h : tokens cs = d.tokens)
    (hrepeated : ¬ Repeated d.tokens) : formatChars cs = linkQueries d.doc := by
  have hne := tokens_union_ne_nil d
  rw [← h] at hne hrepeated
  have htrim := trim_ne_nil_of_tokens hne
  have hparse : Shape.parse? (Text.trim cs) = some d.shape :=
    parse?_of_tokens (by rw [tokens_trim, h])
  have hrender : d.shape.render = d.doc := d.render_shape
  rw [formatChars, if_neg (by simpa using htrim)]
  split
  · rename_i rest hmarked
    rw [after?_marker_of_not_repeated hrepeated] at hmarked
    cases hmarked
  · rw [spell, hparse, Option.elim_some, hrender, linkQueries]

/-- What follows a repeat marker is formatted on its own; if it is an array then the marker takes the
place of the array. -/
theorem formatChars_marker (cs : List Char) :
    formatChars ("...".toList ++ cs) =
      "...".toList ++ (arrayElement? (formatChars (Text.trimEnd cs))).getD
        (formatChars (Text.trimEnd cs)) := by
  rw [formatChars, trim_marker_append, if_neg (by simp)]
  split
  · rename_i rest hmarked
    obtain rfl := List.append_cancel_left (Text.after?_eq_some_iff.1 hmarked)
    rfl
  · rename_i hmarked
    rw [Text.after?_eq_some_iff.2 rfl] at hmarked
    cases hmarked

/-! ## Arrays from end to end -/

theorem isBalanced_name (hrun : IsRun w) (n : Nat) (cs : List Char) :
    isBalanced n (w ++ cs) = isBalanced n cs := by
  induction w with
  | nil => rfl
  | cons c w ih =>
    have hc : isDelimiter c = false := hrun c List.mem_cons_self
    have hopen : c ≠ '<' := by
      rintro rfl
      cases hc
    have hclose : c ≠ '>' := by
      rintro rfl
      cases hc
    rw [List.cons_append, isBalanced.eq_4 n c _ hopen hclose]
    exact ih fun d hd => hrun d (List.mem_cons_of_mem c hd)

theorem isBalanced_bracketPairs (pairs : Nat) (n : Nat) (cs : List Char) :
    isBalanced n (spellingOf (bracketPairs pairs) ++ cs) = isBalanced n cs := by
  induction pairs with
  | zero => rfl
  | succ pairs ih => exact ih

/-- Every angle bracket in a spelling is closed. -/
theorem isBalanced_spelling {d : Derivation p} (h : d.Each IsName IsName fun _ => True) (n : Nat)
    (cs : List Char) : isBalanced n (d.spelling ++ cs) = isBalanced n cs := by
  unfold Derivation.spelling
  -- The depth is general: the arguments of a name stand one bracket deeper than the name.
  induction d generalizing n cs with
  | union first others ihfirst ihothers =>
    rw [Derivation.tokens, spellingOf_append, List.append_assoc, ihfirst h.1, ihothers h.2]
  | noMember => rfl
  | member next others ihnext ihothers =>
    rw [Derivation.tokens, spellingOf_cons, spellingOf_append, List.append_assoc, List.append_assoc]
    exact (ihnext h.1 n _).trans (ihothers h.2 n cs)
  | arrayed primary pairs ih =>
    rw [Derivation.tokens, spellingOf_append, List.append_assoc, ih h.1, isBalanced_bracketPairs]
  | parens inner ih =>
    rw [Derivation.tokens, spellingOf_cons, spellingOf_append, List.append_assoc, List.append_assoc]
    exact ih h n _
  | name text =>
    rw [Derivation.tokens, spellingOf_cons, spellingOf_nil, List.append_nil]
    exact isBalanced_name h.isRun n cs
  | applied text first others ihfirst ihothers =>
    rw [Derivation.tokens, spellingOf_cons, spellingOf_cons, spellingOf_append, spellingOf_append]
    simp only [List.append_assoc]
    refine (isBalanced_name h.1.isRun n _).trans ?_
    refine (ihfirst h.2.1 (n + 1) _).trans ((ihothers h.2.2 (n + 1) _).trans ?_)
    rfl
  | noArgument => rfl
  | argument next others ihnext ihothers =>
    rw [Derivation.tokens, spellingOf_cons, spellingOf_append, List.append_assoc, List.append_assoc]
    exact (ihnext h.1 n _).trans (ihothers h.2 n cs)

theorem Derivation.Proper.isBalanced_doc {d : Derivation p} (h : d.Proper) (n : Nat)
    (cs : List Char) : isBalanced n (d.doc ++ cs) = isBalanced n cs := by
  rw [h.doc_eq_spelling_documented]
  exact isBalanced_spelling (h.documented.mono (fun _ hw => hw.1) (fun _ hw => hw) fun _ hn => hn)
    n cs

/-- A text that closes one more bracket than it opens is balanced in no text that starts with it. -/
theorem not_isBalanced_append (h : isBalanced (n + 1) a = true) (b : List Char) :
    isBalanced n (a ++ b) = false := by
  induction a generalizing n with
  | nil => cases h
  | cons c a ih =>
    by_cases hopen : c = '<'
    · subst hopen
      exact ih h
    by_cases hclose : c = '>'
    · subst hclose
      cases n with
      | zero => rfl
      | succ n => exact ih h
    rw [isBalanced.eq_4 _ c _ hopen hclose] at h
    rw [List.cons_append, isBalanced.eq_4 _ c _ hopen hclose]
    exact ih h

theorem arrayElement?_array (h : isBalanced 0 a = true) :
    arrayElement? ("Array.<".toList ++ a ++ ">".toList) = some a := by
  rw [List.append_assoc, arrayElement?, Text.after?_eq_some_iff.2 rfl]
  simp [h]

/-- A text with a bar behind closed brackets is no array from end to end. -/
theorem arrayElement?_bar (h : isBalanced 0 a = true) (b : List Char) :
    arrayElement? (a ++ ' ' :: b) = none := by
  cases hafter : Text.after? "Array.<".toList (a ++ ' ' :: b) with
  | none => rw [arrayElement?, hafter]; rfl
  | some rest =>
    rw [arrayElement?, hafter, Option.bind_eq_bind, Option.bind_some, if_neg]
    rcases List.append_eq_append_iff.1 (Text.after?_eq_some_iff.1 hafter) with
      ⟨more, hopen, hbar⟩ | ⟨inside, ha, hrest⟩
    · cases more with
      | nil =>
        rw [List.append_nil] at hopen
        rw [← hopen] at h
        exact absurd h (by decide)
      | cons c more =>
        have hblank : ' ' ∈ "Array.<".toList := by
          rw [hopen, (List.cons.inj hbar).1]
          exact List.mem_append_right a List.mem_cons_self
        exact absurd hblank (by decide)
    · -- The bracket behind `Array.` is closed in `a`, so a bracket behind `a` closes another one.
      rw [ha] at h
      have hinside : isBalanced 1 inside = true := h
      have hunbalanced : isBalanced 0 rest.dropLast = false := by
        rw [hrest, List.dropLast_append_of_ne_nil (List.cons_ne_nil ' ' b)]
        exact not_isBalanced_append hinside _
      simp [hunbalanced]

/-! ## Clean names -/

/-- A name that formatting leaves as it is, wherever it stands. -/
structure CleanName (text : List Char) : Prop extends IsName text where
  undotted : text.getLast? ≠ some '.'
  unmarked : ¬ "...".toList <+: text
  unqueried : ¬ "typeof".toList <:+: text

instance (text : List Char) : Decidable (CleanName text) :=
  decidable_of_iff (IsName text ∧ text.getLast? ≠ some '.' ∧ ¬ "...".toList <+: text ∧
      ¬ "typeof".toList <:+: text)
    ⟨fun ⟨hname, hdot, hmarker, hquery⟩ => ⟨hname, hdot, hmarker, hquery⟩,
      fun h => ⟨h.toIsName, h.undotted, h.unmarked, h.unqueried⟩⟩

/-- The text of a token that is a name. -/
def Token.name? : Token → Option (List Char)
  | mark _ => none
  | name text => some text

theorem Token.name?_eq_some_iff {token : Token} : token.name? = some w ↔ token = .name w := by
  cases token <;> simp [name?]

namespace Derivation

/-- Whether all names of a derivation are clean. -/
def Clean (d : Derivation p) : Prop :=
  ∀ text, .name text ∈ d.tokens → CleanName text

/-- The names in a derivation, from left to right. -/
def names (d : Derivation p) : List (List Char) :=
  d.tokens.filterMap Token.name?

theorem mem_names {d : Derivation p} {text : List Char} :
    text ∈ d.names ↔ .name text ∈ d.tokens := by
  rw [names, List.mem_filterMap]
  constructor
  · rintro ⟨token, htoken, hname⟩
    rwa [← Token.name?_eq_some_iff.1 hname]
  · exact fun htext => ⟨_, htext, rfl⟩

instance (d : Derivation p) : Decidable d.Clean :=
  have := List.decidableBAll CleanName d.names
  decidable_of_iff (∀ text ∈ d.names, CleanName text) (forall_congr' fun text => by rw [mem_names])

variable {d : Derivation p}

theorem Clean.proper (h : d.Clean) : d.Proper :=
  (d.each_of_mem_tokens h).mono (fun _ hw => ⟨hw.toIsName, hw.undotted⟩) (fun _ hw => hw.toIsName)
    fun _ hn => hn

theorem Clean.not_repeated (h : d.Clean) : ¬ Repeated d.tokens := by
  rintro ⟨text, hfirst, hmarker⟩
  exact (h text (List.mem_of_head? hfirst)).unmarked hmarker

/-- Whether all names of a derivation are free of queries. -/
def Unqueried (d : Derivation p) : Prop :=
  d.Each (fun w => ¬ "typeof".toList <:+: w) (fun w => ¬ "typeof".toList <:+: w) fun _ => True

theorem Clean.unqueried (h : d.Clean) : d.Unqueried :=
  d.each_of_mem_tokens fun text htext => (h text htext).unqueried

theorem Unqueried.documented (h : d.Unqueried) : d.documented.Unqueried := by
  have hless : ∀ w, ¬ "typeof".toList <:+: w → ¬ "typeof".toList <:+: dropDot w :=
    fun w hw hinside => hw (hinside.trans (dropDot_isPrefix w).isInfix)
  refine (Each.documented h hless (fun w hw hdot => ?_) (by decide)).mono (fun _ hw => hw)
    (fun _ hw => hw) fun _ _ => trivial
  rcases Text.infix_or_infix_of_infix_append (by decide) hdot with hinside | hnil
  · exact hless w hw hinside
  · exact absurd hnil (by decide)

/-- A documentation spelling has no queries unless they are in names. -/
theorem Proper.linkQueries_doc (h : d.Proper) (hnames : d.Unqueried) : linkQueries d.doc = d.doc := by
  refine Text.replaceAll_eq_self fun hquery => ?_
  have hword : "typeof".toList <:+: d.doc :=
    (by decide : "typeof".toList <:+: "typeof ".toList).trans hquery
  obtain ⟨text, hmem, hinside⟩ :=
    exists_name_of_isInfix (by decide) (by decide) (by decide) hword
  rw [h.tokens_doc] at hmem
  exact Each.of_mem hnames.documented hmem hinside

/-- Every spelling of a derivation without queries is formatted as its documentation spelling. -/
theorem Proper.formatChars_eq {d : Derivation .union} (h : d.Proper) (hnames : d.Unqueried)
    (hrepeated : ¬ Repeated d.tokens) (htokens : TypeName.tokens cs = d.tokens) :
    formatChars cs = d.doc := by
  rw [formatChars_of_tokens htokens hrepeated, h.linkQueries_doc hnames]

theorem Clean.formatChars_eq {d : Derivation .union} (h : d.Clean)
    (htokens : TypeName.tokens cs = d.tokens) : formatChars cs = d.doc :=
  h.proper.formatChars_eq h.unqueried h.not_repeated htokens

theorem Proper.isBalanced_elementDoc {element : Derivation .arrayed} (h : element.Proper) :
    isBalanced 0 element.elementDoc = true := by
  have hdoc : ∀ {q : Part} {e : Derivation q}, e.Proper → isBalanced 0 e.doc = true := by
    intro q e he
    have hall := he.isBalanced_doc 0 []
    rwa [List.append_nil] at hall
  cases element with
  | arrayed primary pairs =>
    cases pairs with
    | zero =>
      cases primary with
      | parens inner =>
        have hinner : inner.Proper := h.1
        exact hdoc hinner
      | name text => exact hdoc h
      | applied text first others => exact hdoc h
    | succ pairs => cases primary <;> exact hdoc h

theorem Proper.of_array {element : Derivation .arrayed} (h : element.array.Proper) :
    element.Proper := by
  cases element with
  | arrayed primary pairs => exact ⟨h.1, trivial⟩

/-- Behind a repeat marker an array gives way to its element. -/
theorem Clean.formatChars_marked_array {element : Derivation .arrayed}
    (h : (union element.array noMember).Clean)
    (htokens : TypeName.tokens cs = (union element.array noMember).tokens) :
    formatChars ("...".toList ++ cs) = "...".toList ++ element.elementDoc := by
  rw [← tokens_trimEnd] at htokens
  have hdoc : (union element.array noMember).doc =
      "Array.<".toList ++ element.elementDoc ++ ">".toList := by
    rw [doc, doc, List.append_nil, doc_array]
  have harray : element.array.Proper := h.proper.1
  have hbalanced := harray.of_array.isBalanced_elementDoc
  rw [formatChars_marker, h.formatChars_eq htokens, hdoc, arrayElement?_array hbalanced]
  rfl

/-- A repeat marker in front of a union changes nothing in the union. -/
theorem Clean.formatChars_marked_union {first next : Derivation .arrayed}
    {others : Derivation .members} (h : (union first (member next others)).Clean)
    (htokens : TypeName.tokens cs = (union first (member next others)).tokens) :
    formatChars ("...".toList ++ cs) =
      "...".toList ++ (union first (member next others)).doc := by
  rw [← tokens_trimEnd] at htokens
  -- All brackets of the first member are closed before the bar, so no array spans the union.
  have hbalanced : isBalanced 0 first.doc = true := by
    have hfirst : first.Proper := h.proper.1
    have hall := hfirst.isBalanced_doc 0 []
    rwa [List.append_nil] at hall
  have hnone : arrayElement? (union first (member next others)).doc = none := by
    rw [doc, doc, List.append_assoc]
    exact arrayElement?_bar hbalanced _
  rw [formatChars_marker, h.formatChars_eq htokens, hnone]
  rfl

end Derivation

/-- A type whose names are clean is formatted as its documentation spelling, however it is spaced. Behind
a repeat marker an array gives way to its element and a union stays as it is. -/
theorem format_spellings (d : Derivation .union) (h : d.Clean) :
    tokens d.spelling = d.tokens ∧
      ∀ text : String, tokens text.toList = d.tokens →
        format text = String.ofList d.doc ∧
          (∀ element : Derivation .arrayed, d = .union element.array .noMember →
            format ("..." ++ text) = "..." ++ String.ofList element.elementDoc) ∧
          ∀ (first next : Derivation .arrayed) (others : Derivation .members),
            d = .union first (.member next others) →
              format ("..." ++ text) = "..." ++ String.ofList d.doc := by
  refine ⟨h.proper.tokens_spelling, fun text htokens => ⟨?_, ?_, ?_⟩⟩
  · rw [format, h.formatChars_eq htokens]
  · rintro element rfl
    have hmarked := h.formatChars_marked_array htokens
    rw [format, String.toList_append, hmarked, String.ofList_append, String.ofList_toList]
  · rintro first next others rfl
    have hmarked := h.formatChars_marked_union htokens
    rw [format, String.toList_append, hmarked, String.ofList_append, String.ofList_toList]

/-- The type `Map<string, (A | B[])[]>`. -/
def mapOfArrays : Derivation .arrayed :=
  let members : Derivation .union :=
    .union (.arrayed (.name "A".toList) 0) (.member (.arrayed (.name "B".toList) 1) .noMember)
  let arrays : Derivation .union := .union (.arrayed (.parens members) 1) .noMember
  .arrayed (.applied "Map".toList (.alone (.name "string".toList)) (.argument arrays .noArgument)) 0

/-- The type `A[] | B[]`. -/
def arrayOrArray : Derivation .union :=
  .union (.arrayed (.name "A".toList) 1) (.member (.arrayed (.name "B".toList) 1) .noMember)

/-- An array with and without a repeat marker, and a marked union that starts and ends with arrays. -/
theorem format_spellings_arrays :
    ((Derivation.union mapOfArrays.array .noMember).Clean ∧
      format "Map<string, (A | B[])[]>[]" = "Array.<Map.<string, Array.<A | Array.<B>>>>" ∧
      format "...Map<string, (A | B[])[]>[]" = "...Map.<string, Array.<A | Array.<B>>>") ∧
    arrayOrArray.Clean ∧ format "...A[] | B[]" = "...Array.<A> | Array.<B>" := by
  have harray : (Derivation.union mapOfArrays.array .noMember).Clean := by decide
  have hunion : arrayOrArray.Clean := by decide
  obtain ⟨-, hformat⟩ := format_spellings _ harray
  obtain ⟨hplain, hmarked, -⟩ := hformat "Map<string, (A | B[])[]>[]" (by decide)
  obtain ⟨-, hformat⟩ := format_spellings _ hunion
  obtain ⟨-, -, hmembers⟩ := hformat "A[] | B[]" (by decide)
  exact ⟨⟨harray, hplain, hmarked mapOfArrays rfl⟩, hunion, hmembers _ _ _ rfl⟩

end DocBlock.TypeName
