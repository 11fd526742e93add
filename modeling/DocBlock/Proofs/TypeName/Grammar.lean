import DocBlock.Proofs.Text.Trim
import DocBlock.TypeName.Shape

/-! # The grammar of type names

A type name is a sequence of tokens: the ten delimiters, and between them the runs of other characters
that are not blank, each without the blanks around it. The grammar stands over these tokens.

```text
union   := arrayed ("|" arrayed)*
arrayed := primary ("[" "]")*
primary := "(" union ")" | name ("<" union ("," union)* ">")?
```

A derivation is a tree of the grammar. It writes a sequence of tokens and it denotes a shape. A sequence
of tokens has at most one derivation (`Derivation.eq_of_tokens_eq`), since the first token behind a part
says whether the part goes on. -/

namespace DocBlock.TypeName

/-! ## Tokens -/

/-- A token of a type name. -/
inductive Token where
  /-- A delimiter. -/
  | mark (c : Char)
  /-- A run of other characters. -/
  | name (text : List Char)
  deriving DecidableEq, Repr

/-- A text without delimiters. -/
def IsRun (run : List Char) : Prop :=
  ∀ c ∈ run, Shape.isDelimiter c = false

instance (run : List Char) : Decidable (IsRun run) :=
  List.decidableBAll _ run

/-- The token that a run makes; a blank run makes none. -/
def runTokens (run : List Char) : List Token :=
  if (Text.trim run).isEmpty then [] else [.name (Text.trim run)]

/-- The tokens of a text behind the run that stands directly before it. -/
def tokensBehind (run : List Char) : List Char → List Token
  | [] => runTokens run
  | c :: cs =>
    if Shape.isDelimiter c then runTokens run ++ .mark c :: tokensBehind [] cs
    else tokensBehind (run ++ [c]) cs

/-- The tokens of a text. -/
def tokens (cs : List Char) : List Token :=
  tokensBehind [] cs

variable {c : Char} {cs run : List Char} {ts : List Token}

theorem isRun_nil : IsRun [] :=
  fun _ hc => absurd hc List.not_mem_nil

theorem tokensBehind_append (hrun : IsRun cs) (before rest : List Char) :
    tokensBehind before (cs ++ rest) = tokensBehind (before ++ cs) rest := by
  induction cs generalizing before with
  | nil => simp
  | cons c cs ih =>
    have hc : Shape.isDelimiter c = false := hrun c List.mem_cons_self
    have hcs : IsRun cs := fun d hd => hrun d (List.mem_cons_of_mem c hd)
    simp only [List.cons_append, tokensBehind, hc, Bool.false_eq_true, if_false, ih hcs,
      List.append_assoc, List.nil_append]

theorem tokens_run (hrun : IsRun run) : tokens run = runTokens run := by
  simpa [tokens, tokensBehind] using tokensBehind_append hrun [] []

theorem tokens_run_append (hrun : IsRun run) (hc : Shape.isDelimiter c = true) (cs : List Char) :
    tokens (run ++ c :: cs) = runTokens run ++ .mark c :: tokens cs := by
  rw [tokens, tokensBehind_append hrun, List.nil_append, tokensBehind, if_pos hc, tokens]

@[simp] theorem tokens_nil : tokens [] = [] := rfl

theorem tokens_mark (hc : Shape.isDelimiter c = true) (cs : List Char) :
    tokens (c :: cs) = .mark c :: tokens cs :=
  tokens_run_append isRun_nil hc cs

/-- A text is a run, or it is a run before a delimiter and a text behind it. -/
@[elab_as_elim]
theorem runs_induction {motive : List Char → Prop} (last : ∀ run, IsRun run → motive run)
    (more : ∀ run c cs, IsRun run → Shape.isDelimiter c = true → motive cs →
      motive (run ++ c :: cs)) (cs : List Char) : motive cs := by
  -- The run since the last delimiter is general: a character that is no delimiter joins it.
  have hbehind : ∀ run, IsRun run → motive (run ++ cs) := by
    induction cs with
    | nil =>
      intro run hrun
      rw [List.append_nil]
      exact last run hrun
    | cons c cs ih =>
      intro run hrun
      cases hc : Shape.isDelimiter c with
      | true => exact more run c cs hrun hc (ih [] isRun_nil)
      | false =>
        have hlonger : IsRun (run ++ [c]) := by
          intro d hd
          rcases List.mem_append.1 hd with hd | hd
          · exact hrun d hd
          · rw [List.mem_singleton.1 hd, hc]
        rw [List.append_cons]
        exact ih (run ++ [c]) hlonger
  exact hbehind [] isRun_nil

/-! ## Derivations -/

/-- The parts of the grammar. -/
inductive Part where
  | union
  /-- What follows the first member of a union. -/
  | members
  | arrayed
  | primary
  /-- What follows the first generic argument. -/
  | arguments
  deriving DecidableEq, Repr

/-- A derivation of a part of the grammar. -/
inductive Derivation : Part → Type where
  | union (first : Derivation .arrayed) (others : Derivation .members) : Derivation .union
  | noMember : Derivation .members
  | member (next : Derivation .arrayed) (others : Derivation .members) : Derivation .members
  | arrayed (primary : Derivation .primary) (pairs : Nat) : Derivation .arrayed
  | parens (inner : Derivation .union) : Derivation .primary
  | name (text : List Char) : Derivation .primary
  | applied (text : List Char) (first : Derivation .union) (others : Derivation .arguments) :
      Derivation .primary
  | noArgument : Derivation .arguments
  | argument (next : Derivation .union) (others : Derivation .arguments) : Derivation .arguments

/-- Some pairs of brackets. -/
def bracketPairs : Nat → List Token
  | 0 => []
  | n + 1 => .mark '[' :: .mark ']' :: bracketPairs n

/-- What a derivation of a part denotes: a shape, or the shapes of a list. -/
abbrev Part.Denotes : Part → Type
  | members => List Shape
  | arguments => List Shape
  | union => Shape
  | arrayed => Shape
  | primary => Shape

/-- A shape inside some arrays. -/
def Shape.arrays : Nat → Shape → Shape
  | 0, element => element
  | n + 1, element => array (arrays n element)

namespace Derivation

/-- The tokens that a derivation writes. -/
def tokens : {p : Part} → Derivation p → List Token
  | _, union first others => first.tokens ++ others.tokens
  | _, noMember => []
  | _, member next others => .mark '|' :: (next.tokens ++ others.tokens)
  | _, arrayed primary pairs => primary.tokens ++ bracketPairs pairs
  | _, parens inner => .mark '(' :: (inner.tokens ++ [.mark ')'])
  | _, name text => [.name text]
  | _, applied text first others =>
    .name text :: .mark '<' :: (first.tokens ++ others.tokens ++ [.mark '>'])
  | _, noArgument => []
  | _, argument next others => .mark ',' :: (next.tokens ++ others.tokens)

/-- The shape that a derivation denotes. A name stands without the dot at its end. -/
def shape : {p : Part} → Derivation p → p.Denotes
  | _, union first others => Shape.ofMembers first.shape others.shape
  | _, noMember => []
  | _, member next others => next.shape :: others.shape
  | _, arrayed primary pairs => Shape.arrays pairs primary.shape
  | _, parens inner => .paren inner.shape
  | _, name text => .named (Shape.dropDot text) []
  | _, applied text first others => .named (Shape.dropDot text) (first.shape :: others.shape)
  | _, noArgument => []
  | _, argument next others => next.shape :: others.shape

end Derivation

/-! ## One derivation for each sequence of tokens -/

/-- The delimiters with which a part can go on. -/
def Part.continuations : Part → List Char
  | primary => ['<']
  | arrayed => ['[', '<']
  | union => ['|', '[', '<']
  | members => ['|', '[', '<']
  | arguments => [',', '|', '[', '<']

/-- Whether a part cannot go on into the tokens that follow it. -/
def Part.EndsAt (p : Part) (ts : List Token) : Prop :=
  ∀ c ∈ p.continuations, ts.head? ≠ some (.mark c)

theorem Part.endsAt_nil (p : Part) : p.EndsAt [] := by
  rintro c - ⟨⟩

theorem Part.endsAt_mark {p : Part} (h : c ∉ p.continuations) : p.EndsAt (.mark c :: ts) := by
  rintro d hd ⟨⟩
  exact h hd

theorem Part.EndsAt.mono {p q : Part} (h : p.EndsAt ts) (hsub : q.continuations ⊆ p.continuations) :
    q.EndsAt ts :=
  fun c hc => h c (hsub hc)

/-- Behind a list of members no member can go on. -/
theorem endsAt_members (others : Derivation .members) (h : Part.members.EndsAt ts) :
    Part.arrayed.EndsAt (others.tokens ++ ts) := by
  cases others with
  | noMember => exact h.mono (by decide)
  | member next others => exact Part.endsAt_mark (by decide)

/-- Behind a list of arguments no argument can go on. -/
theorem endsAt_arguments (others : Derivation .arguments) (h : Part.arguments.EndsAt ts) :
    Part.union.EndsAt (others.tokens ++ ts) := by
  cases others with
  | noArgument => exact h.mono (by decide)
  | argument next others => exact Part.endsAt_mark (by decide)

/-- Behind pairs of brackets no primary can go on. -/
theorem endsAt_bracketPairs (pairs : Nat) (h : Part.arrayed.EndsAt ts) :
    Part.primary.EndsAt (bracketPairs pairs ++ ts) := by
  cases pairs with
  | zero => exact h.mono (by decide)
  | succ pairs => exact Part.endsAt_mark (by decide)

theorem bracketPairs_append_inj {n m : Nat} {ts' : List Token}
    (heq : bracketPairs n ++ ts = bracketPairs m ++ ts') (hend : Part.arrayed.EndsAt ts)
    (hother : Part.arrayed.EndsAt ts') : n = m ∧ ts = ts' := by
  induction n generalizing m with
  | zero =>
    cases m with
    | zero => exact ⟨rfl, heq⟩
    | succ m => exact absurd (congrArg List.head? heq) (hend '[' (by decide))
  | succ n ih =>
    cases m with
    | zero => exact absurd (congrArg List.head? heq.symm) (hother '[' (by decide))
    | succ m =>
      simp only [bracketPairs, List.cons_append, List.cons.injEq, true_and] at heq
      obtain ⟨rfl, hts⟩ := ih heq
      exact ⟨rfl, hts⟩

namespace Derivation

/-- Two derivations of a part that write the same tokens, up to where neither can go on, are the
same. -/
theorem tokens_append_inj {p : Part} {d d' : Derivation p} {ts ts' : List Token}
    (heq : d.tokens ++ ts = d'.tokens ++ ts') (hend : p.EndsAt ts) (hother : p.EndsAt ts') :
    d = d' ∧ ts = ts' := by
  -- The tails are general, since inside a part the tail of one piece is the rest of the part.
  induction d generalizing ts ts' with
  | union first others ihfirst ihothers =>
    cases d' with
    | union first' others' =>
      simp only [tokens, List.append_assoc] at heq
      obtain ⟨rfl, hothers⟩ := ihfirst heq (endsAt_members _ (hend.mono (by decide)))
        (endsAt_members _ (hother.mono (by decide)))
      obtain ⟨rfl, hts⟩ := ihothers hothers (hend.mono (by decide)) (hother.mono (by decide))
      exact ⟨rfl, hts⟩
  | noMember =>
    cases d' with
    | noMember => exact ⟨rfl, heq⟩
    | member next' others' => exact absurd (congrArg List.head? heq) (hend '|' (by decide))
  | member next others ihnext ihothers =>
    cases d' with
    | noMember => exact absurd (congrArg List.head? heq.symm) (hother '|' (by decide))
    | member next' others' =>
      simp only [tokens, List.cons_append, List.append_assoc, List.cons.injEq, true_and] at heq
      obtain ⟨rfl, hothers⟩ := ihnext heq (endsAt_members _ hend) (endsAt_members _ hother)
      obtain ⟨rfl, hts⟩ := ihothers hothers hend hother
      exact ⟨rfl, hts⟩
  | arrayed primary pairs ih =>
    cases d' with
    | arrayed primary' pairs' =>
      simp only [tokens, List.append_assoc] at heq
      obtain ⟨rfl, hpairs⟩ := ih heq (endsAt_bracketPairs _ hend) (endsAt_bracketPairs _ hother)
      obtain ⟨rfl, hts⟩ := bracketPairs_append_inj hpairs hend hother
      exact ⟨rfl, hts⟩
  | parens inner ih =>
    cases d' with
    | parens inner' =>
      simp only [tokens, List.cons_append, List.append_assoc, List.cons.injEq, true_and,
        List.nil_append] at heq
      obtain ⟨rfl, hclose⟩ := ih heq (Part.endsAt_mark (by decide)) (Part.endsAt_mark (by decide))
      exact ⟨rfl, (List.cons.inj hclose).2⟩
    | name text' => cases heq
    | applied text' first' others' => cases heq
  | name text =>
    cases d' with
    | parens inner' => cases heq
    | name text' =>
      cases heq
      exact ⟨rfl, rfl⟩
    | applied text' first' others' =>
      -- The bracket would be the first token of the tail, where a name alone could go on.
      have hts : ts = .mark '<' :: _ := (List.cons.inj heq).2
      exact absurd (congrArg List.head? hts) (hend '<' (by decide))
  | applied text first others ihfirst ihothers =>
    cases d' with
    | parens inner' => cases heq
    | name text' =>
      have hts' : ts' = .mark '<' :: _ := (List.cons.inj heq.symm).2
      exact absurd (congrArg List.head? hts') (hother '<' (by decide))
    | applied text' first' others' =>
      simp only [tokens, List.cons_append, List.append_assoc, List.cons.injEq, Token.name.injEq,
        true_and, List.nil_append] at heq
      obtain ⟨rfl, hfirst⟩ := heq
      have hclosed : ∀ ts, Part.arguments.EndsAt (.mark '>' :: ts) :=
        fun ts => Part.endsAt_mark (by decide)
      obtain ⟨rfl, hothers⟩ := ihfirst hfirst (endsAt_arguments _ (hclosed ts))
        (endsAt_arguments _ (hclosed ts'))
      obtain ⟨rfl, hclose⟩ := ihothers hothers (hclosed ts) (hclosed ts')
      exact ⟨rfl, (List.cons.inj hclose).2⟩
  | noArgument =>
    cases d' with
    | noArgument => exact ⟨rfl, heq⟩
    | argument next' others' => exact absurd (congrArg List.head? heq) (hend ',' (by decide))
  | argument next others ihnext ihothers =>
    cases d' with
    | noArgument => exact absurd (congrArg List.head? heq.symm) (hother ',' (by decide))
    | argument next' others' =>
      simp only [tokens, List.cons_append, List.append_assoc, List.cons.injEq, true_and] at heq
      obtain ⟨rfl, hothers⟩ := ihnext heq (endsAt_arguments _ hend) (endsAt_arguments _ hother)
      obtain ⟨rfl, hts⟩ := ihothers hothers hend hother
      exact ⟨rfl, hts⟩

/-- No two derivations write the same tokens. -/
theorem eq_of_tokens_eq {p : Part} {d d' : Derivation p} (h : d.tokens = d'.tokens) : d = d' := by
  have heq : d.tokens ++ [] = d'.tokens ++ [] := by rw [h]
  exact (tokens_append_inj heq p.endsAt_nil p.endsAt_nil).1

end Derivation

end DocBlock.TypeName
