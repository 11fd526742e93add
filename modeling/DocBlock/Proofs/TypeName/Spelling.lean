import DocBlock.Proofs.Text.Lines
import DocBlock.Proofs.TypeName.Reading

/-! # Spellings of derivations

A derivation can be spelled as it is written in source texts (`Derivation.spelling`), and taking the
spelling apart gives back the tokens of the derivation (`Derivation.tokens_spelling`). It also has a
documentation spelling (`Derivation.doc`), which is the one that its shape is rendered in
(`Derivation.render_shape`). -/

namespace DocBlock.TypeName

open Shape (isDelimiter dropDot)

variable {p : Part} {c : Char} {cs w : List Char} {ts : List Token}

/-! ## Source spelling -/

/-- The spelling of a token. A comma stands before a blank and a bar between blanks. -/
def Token.spelling : Token → List Char
  | mark c => if c = ',' then ", ".toList else if c = '|' then " | ".toList else [c]
  | name text => text

/-- The spelling of some tokens. -/
def spellingOf (ts : List Token) : List Char :=
  ts.flatMap Token.spelling

@[simp] theorem spellingOf_nil : spellingOf [] = [] := rfl

@[simp] theorem spellingOf_cons (t : Token) (ts : List Token) :
    spellingOf (t :: ts) = t.spelling ++ spellingOf ts := rfl

@[simp] theorem spellingOf_append (a b : List Token) :
    spellingOf (a ++ b) = spellingOf a ++ spellingOf b :=
  List.flatMap_append

/-- The spelling of a derivation as source texts have it. -/
def Derivation.spelling (d : Derivation p) : List Char :=
  spellingOf d.tokens

/-! ## The tokens of a spelling -/

/-- A text that can be the name of a type. -/
structure IsName (text : List Char) : Prop where
  ne_nil : text ≠ []
  trimmed : Text.trim text = text
  isRun : IsRun text

instance (text : List Char) : Decidable (IsName text) :=
  decidable_of_iff (text ≠ [] ∧ Text.trim text = text ∧ IsRun text)
    ⟨fun ⟨hne, htrim, hrun⟩ => ⟨hne, htrim, hrun⟩, fun h => ⟨h.ne_nil, h.trimmed, h.isRun⟩⟩

/-- Whether some tokens do not start with a name. -/
def Unnamed (ts : List Token) : Prop :=
  ∀ text, ts.head? ≠ some (.name text)

theorem unnamed_nil : Unnamed [] := by
  rintro text ⟨⟩

theorem unnamed_mark : Unnamed (.mark c :: ts) := by
  rintro text ⟨⟩

theorem runTokens_append_blanks (hw : ∀ c ∈ w, Text.isBlank c = true) (run : List Char) :
    runTokens (run ++ w) = runTokens run := by
  rw [runTokens, runTokens, Text.trim_eq_trimStart_trimEnd, Text.trim_eq_trimStart_trimEnd run,
    Text.trimEnd_append_blanks hw]

theorem IsName.runTokens_eq (h : IsName w) : runTokens w = [.name w] := by
  rw [runTokens, h.trimmed, if_neg (by simpa using h.ne_nil)]

theorem blank_of_runTokens {run : List Char} (h : Unnamed (runTokens run ++ ts)) :
    ∀ c ∈ run, Text.isBlank c = true := by
  rw [runTokens] at h
  split at h
  · rename_i hblank
    exact Text.trim_eq_nil_iff.1 (List.isEmpty_iff.1 hblank)
  · exact absurd rfl (h _)

/-- A name is a token of its own before a text that does not start with a name. -/
theorem tokens_name_append (h : IsName w) (hcs : Unnamed (tokens cs)) :
    tokens (w ++ cs) = .name w :: tokens cs := by
  induction cs using runs_induction with
  | last run hrun =>
    rw [tokens_run hrun, ← List.append_nil (runTokens run)] at hcs
    have hblank := blank_of_runTokens hcs
    rw [tokens_run (h.isRun.append hrun), runTokens_append_blanks hblank, h.runTokens_eq,
      tokens_eq_nil_iff.2 (Text.isAllBlank_iff.2 hblank)]
  | more run c cs hrun hc _ =>
    rw [tokens_run_append hrun hc] at hcs
    have hblank := blank_of_runTokens hcs
    rw [← List.append_assoc, tokens_run_append (h.isRun.append hrun) hc,
      runTokens_append_blanks hblank, h.runTokens_eq, tokens_blanks_append hblank, tokens_mark hc]
    rfl

theorem tokens_spelling_mark (hc : isDelimiter c = true) (cs : List Char) :
    tokens ((Token.mark c).spelling ++ cs) = .mark c :: tokens cs := by
  have hblank : ∀ d ∈ [' '], Text.isBlank d = true := List.forall_mem_singleton.2 (by decide)
  rw [Token.spelling]
  split
  · rename_i hcomma
    rw [hcomma]
    exact (tokens_mark (by decide) _).trans (congrArg _ (tokens_blanks_append hblank cs))
  · split
    · rename_i hbar
      rw [hbar]
      refine (tokens_blanks_append hblank _).trans ((tokens_mark (by decide) _).trans ?_)
      exact congrArg _ (tokens_blanks_append hblank cs)
    · exact tokens_mark hc cs

/-! ## What names and brackets there are -/

namespace Derivation

/-- Whether all names without arguments, all names with arguments and all numbers of pairs of brackets
in a derivation are of some kind. -/
def Each (bare applied : List Char → Prop) (pairs : Nat → Prop) : {p : Part} → Derivation p → Prop
  | _, union first others => first.Each bare applied pairs ∧ others.Each bare applied pairs
  | _, noMember => True
  | _, member next others => next.Each bare applied pairs ∧ others.Each bare applied pairs
  | _, arrayed primary n => primary.Each bare applied pairs ∧ pairs n
  | _, parens inner => inner.Each bare applied pairs
  | _, name text => bare text
  | _, .applied text first others =>
    applied text ∧ first.Each bare applied pairs ∧ others.Each bare applied pairs
  | _, noArgument => True
  | _, argument next others => next.Each bare applied pairs ∧ others.Each bare applied pairs

theorem Each.mono {bare bare' applied applied' : List Char → Prop} {pairs pairs' : Nat → Prop}
    {d : Derivation p} (h : d.Each bare applied pairs) (hbare : ∀ w, bare w → bare' w)
    (happlied : ∀ w, applied w → applied' w) (hpairs : ∀ n, pairs n → pairs' n) :
    d.Each bare' applied' pairs' := by
  induction d with
  | union first others ihfirst ihothers => exact ⟨ihfirst h.1, ihothers h.2⟩
  | noMember => trivial
  | member next others ihnext ihothers => exact ⟨ihnext h.1, ihothers h.2⟩
  | arrayed primary n ih => exact ⟨ih h.1, hpairs n h.2⟩
  | parens inner ih => exact ih h
  | name text => exact hbare text h
  | applied text first others ihfirst ihothers =>
    exact ⟨happlied text h.1, ihfirst h.2.1, ihothers h.2.2⟩
  | noArgument => trivial
  | argument next others ihnext ihothers => exact ⟨ihnext h.1, ihothers h.2⟩

theorem Each.and {bare bare' applied applied' : List Char → Prop} {pairs pairs' : Nat → Prop}
    {d : Derivation p} (h : d.Each bare applied pairs) (h' : d.Each bare' applied' pairs') :
    d.Each (fun w => bare w ∧ bare' w) (fun w => applied w ∧ applied' w)
      fun n => pairs n ∧ pairs' n := by
  induction d with
  | union first others ihfirst ihothers => exact ⟨ihfirst h.1 h'.1, ihothers h.2 h'.2⟩
  | noMember => trivial
  | member next others ihnext ihothers => exact ⟨ihnext h.1 h'.1, ihothers h.2 h'.2⟩
  | arrayed primary n ih => exact ⟨ih h.1 h'.1, h.2, h'.2⟩
  | parens inner ih => exact ih h h'
  | name text => exact ⟨h, h'⟩
  | applied text first others ihfirst ihothers =>
    exact ⟨⟨h.1, h'.1⟩, ihfirst h.2.1 h'.2.1, ihothers h.2.2 h'.2.2⟩
  | noArgument => trivial
  | argument next others ihnext ihothers => exact ⟨ihnext h.1 h'.1, ihothers h.2 h'.2⟩

theorem each_of_mem_tokens {kind : List Char → Prop} (d : Derivation p)
    (h : ∀ text, .name text ∈ d.tokens → kind text) : d.Each kind kind fun _ => True := by
  induction d with
  | union first others ihfirst ihothers =>
    simp only [tokens, List.mem_append] at h
    exact ⟨ihfirst fun w hw => h w (.inl hw), ihothers fun w hw => h w (.inr hw)⟩
  | noMember => trivial
  | member next others ihnext ihothers =>
    simp only [tokens, List.mem_cons, List.mem_append] at h
    exact ⟨ihnext fun w hw => h w (.inr (.inl hw)), ihothers fun w hw => h w (.inr (.inr hw))⟩
  | arrayed primary n ih =>
    simp only [tokens, List.mem_append] at h
    exact ⟨ih fun w hw => h w (.inl hw), trivial⟩
  | parens inner ih =>
    simp only [tokens, List.mem_cons, List.mem_append] at h
    exact ih fun w hw => h w (.inr (.inl hw))
  | name text => exact h text List.mem_cons_self
  | applied text first others ihfirst ihothers =>
    simp only [tokens, List.mem_cons, List.mem_append] at h
    exact ⟨h text (.inl rfl), ihfirst fun w hw => h w (.inr (.inr (.inl (.inl hw)))),
      ihothers fun w hw => h w (.inr (.inr (.inl (.inr hw))))⟩
  | noArgument => trivial
  | argument next others ihnext ihothers =>
    simp only [tokens, List.mem_cons, List.mem_append] at h
    exact ⟨ihnext fun w hw => h w (.inr (.inl hw)), ihothers fun w hw => h w (.inr (.inr hw))⟩

end Derivation

theorem unnamed_members (others : Derivation .members) (h : Unnamed ts) :
    Unnamed (others.tokens ++ ts) := by
  cases others with
  | noMember => exact h
  | member next others => exact unnamed_mark

theorem unnamed_arguments (others : Derivation .arguments) (h : Unnamed ts) :
    Unnamed (others.tokens ++ ts) := by
  cases others with
  | noArgument => exact h
  | argument next others => exact unnamed_mark

theorem unnamed_bracketPairs (pairs : Nat) (h : Unnamed ts) : Unnamed (bracketPairs pairs ++ ts) := by
  cases pairs with
  | zero => exact h
  | succ pairs => exact unnamed_mark

theorem tokens_bracketPairs (pairs : Nat) (cs : List Char) :
    tokens (spellingOf (bracketPairs pairs) ++ cs) = bracketPairs pairs ++ tokens cs := by
  induction pairs with
  | zero => rfl
  | succ pairs ih =>
    simp only [bracketPairs, spellingOf_cons, List.append_assoc, List.cons_append]
    rw [tokens_spelling_mark (by decide), tokens_spelling_mark (by decide), ih]

/-- Spelling a derivation and taking the spelling apart again gives its tokens, before any text that
does not start with a name. -/
theorem Derivation.tokens_spelling_append {d : Derivation p}
    (h : d.Each IsName IsName fun _ => True) (hcs : Unnamed (TypeName.tokens cs)) :
    TypeName.tokens (d.spelling ++ cs) = d.tokens ++ TypeName.tokens cs := by
  unfold spelling
  -- The last piece of each part comes first: the piece before it must not have a name behind it.
  induction d generalizing cs with
  | union first others ihfirst ihothers =>
    have hothers := ihothers h.2 hcs
    have hbehind := unnamed_members others hcs
    rw [← hothers] at hbehind
    simp only [tokens, spellingOf_append, List.append_assoc]
    rw [ihfirst h.1 hbehind, hothers]
  | noMember => rfl
  | member next others ihnext ihothers =>
    have hothers := ihothers h.2 hcs
    have hbehind := unnamed_members others hcs
    rw [← hothers] at hbehind
    simp only [tokens, spellingOf_cons, spellingOf_append, List.append_assoc, List.cons_append]
    rw [tokens_spelling_mark (by decide), ihnext h.1 hbehind, hothers]
  | arrayed primary pairs ih =>
    have hbehind := unnamed_bracketPairs pairs hcs
    rw [← tokens_bracketPairs] at hbehind
    simp only [tokens, spellingOf_append, List.append_assoc]
    rw [ih h.1 hbehind, tokens_bracketPairs]
  | parens inner ih =>
    have hclose := tokens_spelling_mark (c := ')') (by decide) cs
    simp only [tokens, spellingOf_cons, spellingOf_append, spellingOf_nil, List.append_nil,
      List.append_assoc, List.cons_append, List.nil_append]
    rw [tokens_spelling_mark (by decide), ih h (by rw [hclose]; exact unnamed_mark), hclose]
  | name text =>
    simp only [tokens, spellingOf_cons, spellingOf_nil, List.append_nil, Token.spelling]
    exact tokens_name_append h hcs
  | applied text first others ihfirst ihothers =>
    have hclose := tokens_spelling_mark (c := '>') (by decide) cs
    have hclosed : Unnamed (.mark '>' :: TypeName.tokens cs) := unnamed_mark
    rw [← hclose] at hclosed
    have hothers := ihothers h.2.2 hclosed
    have hbehind := unnamed_arguments others hclosed
    rw [← hothers] at hbehind
    have hfirst := ihfirst h.2.1 hbehind
    have hopen := tokens_spelling_mark (c := '<') (by decide)
      (spellingOf first.tokens ++ (spellingOf others.tokens ++ ((Token.mark '>').spelling ++ cs)))
    have hname := tokens_name_append h.1 (by rw [hopen]; exact unnamed_mark)
    simp only [tokens, spellingOf_cons, spellingOf_append, spellingOf_nil, List.append_nil,
      List.append_assoc, List.cons_append, List.nil_append]
    rw [show (Token.name text).spelling = text from rfl, hname, hopen, hfirst, hothers, hclose]
  | noArgument => rfl
  | argument next others ihnext ihothers =>
    have hothers := ihothers h.2 hcs
    have hbehind := unnamed_arguments others hcs
    rw [← hothers] at hbehind
    simp only [tokens, spellingOf_cons, spellingOf_append, List.append_assoc, List.cons_append]
    rw [tokens_spelling_mark (by decide), ihnext h.1 hbehind, hothers]

theorem Derivation.tokens_spelling {d : Derivation p} (h : d.Each IsName IsName fun _ => True) :
    TypeName.tokens d.spelling = d.tokens := by
  have hnothing : Unnamed (TypeName.tokens []) := unnamed_nil
  have happend := tokens_spelling_append h hnothing
  rwa [List.append_nil, TypeName.tokens_nil, List.append_nil] at happend

/-! ## Documentation spelling -/

/-- A text in some arrays. -/
def inArrays : Nat → List Char → List Char
  | 0, element => element
  | n + 1, element => "Array.<".toList ++ inArrays n element ++ ">".toList

theorem inArrays_succ (n : Nat) (element : List Char) :
    inArrays (n + 1) element = "Array.<".toList ++ inArrays n element ++ ">".toList := rfl

namespace Derivation

/-- The documentation spelling: generic arguments in `.<…>`, arrays as `Array.<…>` without the
parentheses directly around the element. -/
def doc : {p : Part} → Derivation p → List Char
  | _, union first others => first.doc ++ others.doc
  | _, noMember => []
  | _, member next others => " | ".toList ++ next.doc ++ others.doc
  | _, arrayed (parens inner) (pairs + 1) => inArrays (pairs + 1) inner.doc
  | _, arrayed primary pairs => inArrays pairs primary.doc
  | _, parens inner => "(".toList ++ inner.doc ++ ")".toList
  | _, name text => dropDot text
  | _, .applied text first others =>
    dropDot text ++ ".<".toList ++ first.doc ++ others.doc ++ ">".toList
  | _, noArgument => []
  | _, argument next others => ", ".toList ++ next.doc ++ others.doc

theorem doc_bare (primary : Derivation .primary) : (arrayed primary 0).doc = primary.doc := by
  cases primary <;> rfl

/-- The element of an array stands without the parentheses directly around it. -/
def elementDoc : Derivation .arrayed → List Char
  | arrayed (parens inner) 0 => inner.doc
  | element => element.doc

/-- The array of an element. -/
def array : Derivation .arrayed → Derivation .arrayed
  | arrayed primary pairs => arrayed primary (pairs + 1)

theorem doc_array (element : Derivation .arrayed) :
    element.array.doc = "Array.<".toList ++ element.elementDoc ++ ">".toList := by
  cases element with
  | arrayed primary pairs => cases primary <;> cases pairs <;> rfl

end Derivation

/-! ## Rendered shapes -/

namespace Shape

theorem render_name (name : List Char) : (named name []).render = name := by
  rw [render.eq_def]

theorem render_paren (inner : Shape) :
    (paren inner).render = "(".toList ++ inner.render ++ ")".toList := by
  rw [render.eq_def]

theorem render_array_paren (inner : Shape) :
    (array (paren inner)).render = "Array.<".toList ++ inner.render ++ ">".toList := by
  rw [render.eq_def]

theorem render_array {element : Shape} (h : ∀ inner, element ≠ paren inner) :
    (array element).render = "Array.<".toList ++ element.render ++ ">".toList := by
  cases element with
  | paren inner => exact absurd rfl (h inner)
  | named name args => rw [render.eq_def]
  | array element => rw [render.eq_def]
  | union members => rw [render.eq_def]

@[simp] theorem renderAll_nil : renderAll [] = [] := by
  rw [renderAll.eq_def]

@[simp] theorem renderAll_cons (shape : Shape) (shapes : List Shape) :
    renderAll (shape :: shapes) = shape.render :: renderAll shapes := by
  rw [renderAll.eq_def]

theorem render_applied (name : List Char) (first : Shape) (others : List Shape) :
    (named name (first :: others)).render = name ++ ".<".toList ++
      (first.render ++ (renderAll others).flatMap (", ".toList ++ ·)) ++ ">".toList := by
  rw [render.eq_def]
  dsimp only
  rw [renderAll_cons, Text.join_eq_append_flatMap]

theorem render_ofMembers (first : Shape) (others : List Shape) :
    (ofMembers first others).render =
      first.render ++ (renderAll others).flatMap (" | ".toList ++ ·) := by
  cases others with
  | nil => rw [ofMembers, renderAll_nil, List.flatMap_nil, List.append_nil]
  | cons next others =>
    change (union (first :: next :: others)).render = _
    rw [render.eq_def]
    dsimp only
    rw [renderAll_cons, Text.join_eq_append_flatMap]

theorem render_arrays {element : Shape} (h : ∀ inner, element ≠ paren inner) (pairs : Nat) :
    (arrays pairs element).render = inArrays pairs element.render := by
  induction pairs with
  | zero => rfl
  | succ pairs ih =>
    have hnext : ∀ inner, arrays pairs element ≠ paren inner := by
      cases pairs with
      | zero => exact h
      | succ pairs => rintro inner ⟨⟩
    rw [arrays, render_array hnext, ih, inArrays_succ]

theorem render_arrays_paren (inner : Shape) (pairs : Nat) :
    (arrays (pairs + 1) (paren inner)).render = inArrays (pairs + 1) inner.render := by
  induction pairs with
  | zero => exact render_array_paren inner
  | succ pairs ih =>
    have hnext : ∀ i, arrays (pairs + 1) (paren inner) ≠ paren i := by rintro i ⟨⟩
    rw [arrays, render_array hnext, ih, ← inArrays_succ]

end Shape

/-- How what a part denotes is rendered behind what stands in front of the part. -/
def Part.render : (p : Part) → p.Denotes → List Char
  | union, shape => shape.render
  | members, shapes => (Shape.renderAll shapes).flatMap (" | ".toList ++ ·)
  | arrayed, shape => shape.render
  | primary, shape => shape.render
  | arguments, shapes => (Shape.renderAll shapes).flatMap (", ".toList ++ ·)

/-- The shape that a derivation denotes is rendered as the documentation spelling of the derivation. -/
theorem Derivation.render_shape (d : Derivation p) : p.render d.shape = d.doc := by
  induction d with
  | union first others ihfirst ihothers =>
    simp only [Part.render] at ihfirst ihothers
    rw [shape, Part.render, Shape.render_ofMembers, ihfirst, ihothers, doc]
  | noMember => exact congrArg (List.flatMap _) Shape.renderAll_nil
  | member next others ihnext ihothers =>
    simp only [Part.render] at ihnext ihothers
    rw [shape, Part.render, Shape.renderAll_cons, List.flatMap_cons, ihnext, ihothers, doc]
  | arrayed primary pairs ih =>
    simp only [Part.render] at ih
    rw [shape, Part.render]
    cases primary with
    | parens inner =>
      cases pairs with
      | zero => rw [Shape.arrays, ih, doc_bare]
      | succ pairs =>
        -- Without its parentheses, what is known of the primary is known of the type inside.
        rw [shape, Shape.render_paren, doc, List.append_cancel_right_eq,
          List.append_cancel_left_eq] at ih
        rw [shape, Shape.render_arrays_paren, ih, doc]
    | name text => rw [Shape.render_arrays (by rintro i ⟨⟩), ih]; cases pairs <;> rfl
    | applied text first others =>
      rw [Shape.render_arrays (by rintro i ⟨⟩), ih]
      cases pairs <;> rfl
  | parens inner ih =>
    simp only [Part.render] at ih
    rw [shape, Part.render, Shape.render_paren, ih, doc]
  | name text => rw [shape, Part.render, Shape.render_name, doc]
  | applied text first others ihfirst ihothers =>
    simp only [Part.render] at ihfirst ihothers
    rw [shape, Part.render, Shape.render_applied, ihfirst, ihothers, doc]
    simp only [List.append_assoc]
  | noArgument => exact congrArg (List.flatMap _) Shape.renderAll_nil
  | argument next others ihnext ihothers =>
    simp only [Part.render] at ihnext ihothers
    rw [shape, Part.render, Shape.renderAll_cons, List.flatMap_cons, ihnext, ihothers, doc]

end DocBlock.TypeName
