import DocBlock.Proofs.TypeName.Grammar

/-! # Reading type names

The readers of shapes follow the grammar of type names. What a reader gives is denoted by a derivation
of the tokens that it takes (`Part.exists_derivation`), and it takes every derivation behind which its
part cannot go on (`Derivation.read?_eq_some`). The bound on the depth of the reading is large enough
for each text. A text therefore has a shape exactly when it is derivable, and the shape is the one that
its only derivation denotes. -/

namespace DocBlock.TypeName

variable {c : Char} {cs rest run w : List Char} {ts : List Token} {n : Nat}

open Shape

/-! ## The first token of a text -/

theorem isBlank_of_isDelimiter (h : isDelimiter c = true) : Text.isBlank c = false := by
  simp only [isDelimiter, List.contains_iff_mem] at h
  have hall : Text.IsSolid "<>,|()[]\x7b\x7d".toList := by decide
  exact hall c h

theorem isRun_takeWhile (cs : List Char) : IsRun (cs.takeWhile fun c => !isDelimiter c) := by
  intro c hc
  simpa using List.mem_takeWhile_imp hc

/-- A run ends at the end of the text or at a delimiter. -/
theorem tokens_append (hrun : IsRun run) (hrest : ∀ c ∈ rest.head?, isDelimiter c = true) :
    tokens (run ++ rest) = runTokens run ++ tokens rest := by
  cases rest with
  | nil => rw [List.append_nil, tokens_run hrun, tokens_nil, List.append_nil]
  | cons c cs =>
    have hc : isDelimiter c = true := hrest c rfl
    rw [tokens_run_append hrun hc, tokens_mark hc]

theorem runTokens_blanks_append (hw : ∀ c ∈ w, Text.isBlank c = true) (run : List Char) :
    runTokens (w ++ run) = runTokens run := by
  rw [runTokens, runTokens, Text.trim, Text.trim, Text.trimStart_blanks_append hw]

theorem isRun_blanks (hw : ∀ c ∈ w, Text.isBlank c = true) : IsRun w := by
  intro c hc
  cases hdelimiter : isDelimiter c with
  | false => rfl
  | true =>
    have hsolid := isBlank_of_isDelimiter hdelimiter
    rw [hw c hc] at hsolid
    cases hsolid

theorem IsRun.append {a b : List Char} (ha : IsRun a) (hb : IsRun b) : IsRun (a ++ b) := by
  intro c hc
  exact (List.mem_append.1 hc).elim (ha c) (hb c)

/-- Blanks in front of a text make no token. -/
theorem tokens_blanks_append (hw : ∀ c ∈ w, Text.isBlank c = true) (cs : List Char) :
    tokens (w ++ cs) = tokens cs := by
  induction cs using runs_induction with
  | last run hrun =>
    rw [tokens_run ((isRun_blanks hw).append hrun), runTokens_blanks_append hw, tokens_run hrun]
  | more run c cs hrun hc _ =>
    rw [← List.append_assoc, tokens_run_append ((isRun_blanks hw).append hrun) hc,
      runTokens_blanks_append hw, tokens_run_append hrun hc]

theorem tokens_trimStart (cs : List Char) : tokens (Text.trimStart cs) = tokens cs := by
  obtain ⟨w, hw, hcs⟩ := Text.exists_blanks_append_trimStart cs
  conv_rhs => rw [hcs]
  rw [tokens_blanks_append hw]

/-- What a text starts with behind its leading blanks. -/
inductive StartsWith (cs : List Char) : Prop where
  | nothing (trimmed : Text.trimStart cs = []) (unnamed : name? cs = none) (empty : tokens cs = [])
  | mark (c : Char) (rest : List Char) (trimmed : Text.trimStart cs = c :: rest)
      (unnamed : name? cs = none) (taken : tokens cs = .mark c :: tokens rest)
  | name (c : Char) (more text rest : List Char) (trimmed : Text.trimStart cs = c :: more)
      (solid : isDelimiter c = false) (named : name? cs = some (text, rest))
      (taken : tokens cs = .name text :: tokens rest)

theorem startsWith (cs : List Char) : StartsWith cs := by
  have htokens := tokens_trimStart cs
  cases htrim : Text.trimStart cs with
  | nil =>
    rw [htrim] at htokens
    exact .nothing htrim (by rw [name?, htrim]; rfl) htokens.symm
  | cons c rest =>
    rw [htrim] at htokens
    set run := (c :: rest).takeWhile fun d => !isDelimiter d with hrun
    set next := (c :: rest).dropWhile fun d => !isDelimiter d with hnext
    have hname : name? cs =
        if (Text.trimEnd run).isEmpty then none else some (Text.trimEnd run, next) := by
      rw [name?, htrim]
    cases hc : isDelimiter c with
    | true =>
      have hnil : run = [] := List.takeWhile_cons_of_neg (by simp [hc])
      rw [hnil] at hname
      exact .mark c rest htrim hname (htokens.symm.trans (tokens_mark hc rest))
    | false =>
      -- The name is the run that `c` begins; `c` is no blank, so trimming leaves the start of the run.
      have hsolid : Text.isBlank c = false := Text.isBlank_head_trimStart (by rw [htrim]; rfl)
      obtain ⟨more, hmore⟩ : ∃ more, run = c :: more :=
        ⟨_, List.takeWhile_cons_of_pos (by simp [hc])⟩
      have hstart : Text.trimStart run = run := by rw [hmore, Text.trimStart_cons_of_solid hsolid]
      have hne : ¬ (Text.trimEnd run).isEmpty := by
        rw [List.isEmpty_iff, Text.trimEnd_eq_nil_iff, hmore]
        intro hblank
        rw [hblank c List.mem_cons_self] at hsolid
        cases hsolid
      have hend : ∀ d ∈ next.head?, isDelimiter d = true := by
        intro d hd
        have hstop := List.head?_dropWhile_not (fun d => !isDelimiter d) (c :: rest)
        rw [← hnext, Option.mem_def.1 hd] at hstop
        simpa using hstop
      refine .name c rest (Text.trimEnd run) next htrim hc (by rw [hname, if_neg hne]) ?_
      have hsplit : run ++ next = c :: rest := List.takeWhile_append_dropWhile
      rw [← htokens, ← hsplit, tokens_append (isRun_takeWhile _) hend, runTokens, Text.trim, hstart,
        if_neg hne]
      rfl

/-- A text makes no token exactly when it is blank. -/
theorem tokens_eq_nil_iff : tokens cs = [] ↔ Text.isAllBlank cs = true := by
  constructor
  · intro h
    cases startsWith cs with
    | nothing trimmed =>
      rw [Text.isAllBlank_iff, ← Text.trim_eq_nil_iff, Text.trim, trimmed, Text.trimEnd_nil]
    | mark c rest _ _ taken => simp [taken] at h
    | name c more text rest _ _ _ taken => simp [taken] at h
  · intro h
    have hblank := tokens_blanks_append (Text.isAllBlank_iff.1 h) []
    rwa [List.append_nil] at hblank

theorem tokens_of_eat? (hc : isDelimiter c = true) (h : eat? c cs = some rest) :
    tokens cs = .mark c :: tokens rest := by
  rw [eat?] at h
  split at h
  · cases h
  · rename_i d more htrim
    split at h
    · rename_i hd
      cases h
      rw [← tokens_trimStart, htrim, hd, tokens_mark hc]
    · cases h

/-- A delimiter is taken when it is the first token. -/
theorem eat?_of_tokens (h : tokens cs = .mark c :: ts) :
    ∃ rest, eat? c cs = some rest ∧ tokens rest = ts := by
  cases startsWith cs with
  | nothing _ _ empty => simp [empty] at h
  | mark d rest trimmed _ taken =>
    rw [taken] at h
    cases h
    exact ⟨rest, by simp [eat?, trimmed], rfl⟩
  | name d more text rest _ _ _ taken => simp [taken] at h

/-- A delimiter that is not the first token is not taken. -/
theorem eat?_eq_none (hc : isDelimiter c = true) (h : (tokens cs).head? ≠ some (.mark c)) :
    eat? c cs = none := by
  cases htaken : eat? c cs with
  | none => rfl
  | some rest =>
    rw [tokens_of_eat? hc htaken] at h
    exact absurd rfl h

theorem tokens_of_name? (h : name? cs = some (w, rest)) : tokens cs = .name w :: tokens rest := by
  cases startsWith cs with
  | nothing _ unnamed => simp [unnamed] at h
  | mark c more _ unnamed => simp [unnamed] at h
  | name c more text next _ _ named taken =>
    rw [named] at h
    cases h
    exact taken

/-- A name is taken when it is the first token. -/
theorem name?_of_tokens (h : tokens cs = .name w :: ts) :
    ∃ rest, name? cs = some (w, rest) ∧ tokens rest = ts := by
  cases startsWith cs with
  | nothing _ _ empty => simp [empty] at h
  | mark c rest _ _ taken => simp [taken] at h
  | name c more text rest _ _ named taken =>
    rw [taken] at h
    cases h
    exact ⟨rest, named, rfl⟩

/-- No text makes more tokens than it has characters. -/
theorem length_tokens_le (cs : List Char) : (tokens cs).length ≤ cs.length := by
  have hshort : ∀ run, (runTokens run).length ≤ run.length := by
    intro run
    rw [runTokens]
    split
    · exact Nat.zero_le _
    · rename_i hsolid
      refine Nat.one_le_iff_ne_zero.2 fun hnil => hsolid ?_
      rw [List.length_eq_zero_iff.1 hnil]
      rfl
  induction cs using runs_induction with
  | last run hrun =>
    rw [tokens_run hrun]
    exact hshort run
  | more run c cs hrun hc ih =>
    have := hshort run
    simp only [tokens_run_append hrun hc, List.length_append, List.length_cons]
    omega

/-! ## The dot at the end of a name -/

theorem dropDot_append_dot (text : List Char) : dropDot (text ++ ['.']) = text := by
  simp [dropDot]

theorem dropDot_of_undotted (h : w.getLast? ≠ some '.') : dropDot w = w :=
  if_neg h

theorem dropDot_append_of_dotted (h : w.getLast? = some '.') : dropDot w ++ ['.'] = w := by
  rw [dropDot, if_pos h]
  exact List.dropLast_append_getLast? _ h

theorem dropDot_isPrefix (text : List Char) : dropDot text <+: text := by
  rw [dropDot]
  split
  · exact List.dropLast_prefix text
  · exact List.prefix_rfl

/-! ## The readers follow the grammar -/

/-- The reader of a part. -/
def Part.read? : (p : Part) → Nat → List Char → Option (p.Denotes × List Char)
  | union => union?
  | members => members?
  | arrayed => arrayed?
  | primary => primary?
  | arguments => arguments?

theorem arrays_array (n : Nat) (element : Shape) :
    arrays n (array element) = arrays (n + 1) element := by
  induction n with
  | zero => rfl
  | succ n ih => rw [arrays, ih, ← arrays]

theorem exists_bracketPairs {element shape : Shape} (h : brackets? n element cs = some (shape, rest)) :
    ∃ pairs, arrays pairs element = shape ∧ tokens cs = bracketPairs pairs ++ tokens rest := by
  induction n generalizing element cs with
  | zero => cases h
  | succ n ih =>
    rw [brackets?] at h
    split at h
    · cases h
      exact ⟨0, rfl, rfl⟩
    · rename_i inside hopen
      obtain ⟨next, hclose, hmore⟩ := Option.bind_eq_some_iff.1 h
      obtain ⟨pairs, hshape, htokens⟩ := ih hmore
      refine ⟨pairs + 1, by rw [← arrays_array, hshape], ?_⟩
      rw [tokens_of_eat? (by decide) hopen, tokens_of_eat? (by decide) hclose, htokens]
      rfl

/-- What a reader gives is denoted by a derivation of the tokens that it takes. -/
theorem Part.exists_derivation {p : Part} {tree : p.Denotes} (h : p.read? n cs = some (tree, rest)) :
    ∃ d : Derivation p, d.shape = tree ∧ tokens cs = d.tokens ++ tokens rest := by
  -- The readers call each other with less depth left, so one induction serves all parts.
  induction n generalizing p cs rest with
  | zero => cases p <;> cases h
  | succ n ih =>
    cases p with
    | union =>
      rw [read?, union?] at h
      obtain ⟨⟨first, next⟩, hfirst, h⟩ := Option.bind_eq_some_iff.1 h
      obtain ⟨⟨others, last⟩, hothers, h⟩ := Option.bind_eq_some_iff.1 h
      obtain ⟨dfirst, rfl, htokens⟩ := ih (p := .arrayed) hfirst
      obtain ⟨dothers, rfl, hmore⟩ := ih (p := .members) hothers
      cases h
      refine ⟨.union dfirst dothers, rfl, ?_⟩
      rw [htokens, hmore, Derivation.tokens, List.append_assoc]
    | members =>
      rw [read?, members?] at h
      split at h
      · cases h
        exact ⟨.noMember, rfl, rfl⟩
      · rename_i inside hbar
        obtain ⟨⟨member, next⟩, hmember, h⟩ := Option.bind_eq_some_iff.1 h
        obtain ⟨⟨others, last⟩, hothers, h⟩ := Option.bind_eq_some_iff.1 h
        obtain ⟨dmember, rfl, htokens⟩ := ih (p := .arrayed) hmember
        obtain ⟨dothers, rfl, hmore⟩ := ih (p := .members) hothers
        cases h
        refine ⟨.member dmember dothers, rfl, ?_⟩
        rw [tokens_of_eat? (by decide) hbar, htokens, hmore, Derivation.tokens, List.cons_append,
          List.append_assoc]
    | arrayed =>
      rw [read?, arrayed?] at h
      obtain ⟨⟨element, next⟩, helement, h⟩ := Option.bind_eq_some_iff.1 h
      obtain ⟨delement, rfl, htokens⟩ := ih (p := .primary) helement
      obtain ⟨pairs, hshape, hmore⟩ := exists_bracketPairs h
      refine ⟨.arrayed delement pairs, hshape, ?_⟩
      rw [htokens, hmore, Derivation.tokens, List.append_assoc]
    | primary =>
      rw [read?, primary?] at h
      split at h
      · rename_i inside hopen
        obtain ⟨⟨inner, next⟩, hinner, h⟩ := Option.bind_eq_some_iff.1 h
        obtain ⟨last, hclose, h⟩ := Option.bind_eq_some_iff.1 h
        obtain ⟨dinner, rfl, htokens⟩ := ih (p := .union) hinner
        cases h
        refine ⟨.parens dinner, rfl, ?_⟩
        rw [tokens_of_eat? (by decide) hopen, htokens, tokens_of_eat? (by decide) hclose]
        simp [Derivation.tokens]
      · obtain ⟨⟨text, next⟩, hname, h⟩ := Option.bind_eq_some_iff.1 h
        dsimp only at h
        split at h
        · cases h
          exact ⟨.name text, rfl, tokens_of_name? hname⟩
        · rename_i inside hopen
          obtain ⟨⟨first, more⟩, hfirst, h⟩ := Option.bind_eq_some_iff.1 h
          obtain ⟨⟨others, last⟩, hothers, h⟩ := Option.bind_eq_some_iff.1 h
          obtain ⟨final, hclose, h⟩ := Option.bind_eq_some_iff.1 h
          obtain ⟨dfirst, rfl, htokens⟩ := ih (p := .union) hfirst
          obtain ⟨dothers, rfl, hmore⟩ := ih (p := .arguments) hothers
          cases h
          refine ⟨.applied text dfirst dothers, rfl, ?_⟩
          rw [tokens_of_name? hname, tokens_of_eat? (by decide) hopen, htokens, hmore,
            tokens_of_eat? (by decide) hclose]
          simp [Derivation.tokens]
    | arguments =>
      rw [read?, arguments?] at h
      split at h
      · cases h
        exact ⟨.noArgument, rfl, rfl⟩
      · rename_i inside hcomma
        obtain ⟨⟨arg, next⟩, harg, h⟩ := Option.bind_eq_some_iff.1 h
        obtain ⟨⟨others, last⟩, hothers, h⟩ := Option.bind_eq_some_iff.1 h
        obtain ⟨darg, rfl, htokens⟩ := ih (p := .union) harg
        obtain ⟨dothers, rfl, hmore⟩ := ih (p := .arguments) hothers
        cases h
        refine ⟨.argument darg dothers, rfl, ?_⟩
        rw [tokens_of_eat? (by decide) hcomma, htokens, hmore, Derivation.tokens, List.cons_append,
          List.append_assoc]

/-! ## The readers take every derivation -/

/-- How many readers can start before the first token of a part is taken. -/
def Part.depth : Part → Nat
  | union => 3
  | arrayed => 2
  | members => 1
  | primary => 1
  | arguments => 1

theorem brackets?_eq_some {pairs : Nat} (element : Shape)
    (htokens : tokens cs = bracketPairs pairs ++ ts) (hend : Part.arrayed.EndsAt ts) :
    ∃ rest, brackets? (n + pairs + 1) element cs = some (arrays pairs element, rest) ∧
      tokens rest = ts := by
  induction pairs generalizing element cs with
  | zero =>
    have hstop : eat? '[' cs = none :=
      eat?_eq_none (by decide) (by rw [htokens]; exact hend '[' (by decide))
    refine ⟨cs, ?_, htokens⟩
    rw [brackets?, hstop]
    rfl
  | succ pairs ih =>
    obtain ⟨inside, hopen, hinside⟩ := eat?_of_tokens htokens
    obtain ⟨next, hclose, hnext⟩ := eat?_of_tokens hinside
    obtain ⟨rest, hread, hrest⟩ := ih (array element) hnext
    refine ⟨rest, ?_, hrest⟩
    rw [brackets?, hopen, ← arrays_array]
    simp only [hclose, Option.bind_eq_bind, Option.bind_some]
    exact hread

theorem length_bracketPairs (pairs : Nat) : (bracketPairs pairs).length = 2 * pairs := by
  induction pairs with
  | zero => rfl
  | succ pairs ih =>
    simp only [bracketPairs, List.length_cons, ih]
    omega

/-- Every primary has a first token. -/
theorem tokens_primary_ne_nil (d : Derivation .primary) : d.tokens ≠ [] := by
  cases d <;> exact List.cons_ne_nil _ _

theorem tokens_arrayed_ne_nil (d : Derivation .arrayed) : d.tokens ≠ [] := by
  cases d with
  | arrayed primary pairs =>
    exact List.append_ne_nil_of_left_ne_nil (tokens_primary_ne_nil primary) _

theorem tokens_union_ne_nil (d : Derivation .union) : d.tokens ≠ [] := by
  cases d with
  | union first others => exact List.append_ne_nil_of_left_ne_nil (tokens_arrayed_ne_nil first) _

theorem Part.exists_succ {p : Part} {k : Nat} (h : k + p.depth ≤ n) : ∃ m, n = m + 1 := by
  refine Nat.exists_eq_add_one.2 (Nat.lt_of_lt_of_le (Nat.add_pos_right k ?_) h)
  cases p <;> exact Nat.succ_pos _

/-- The reader of a part takes a derivation of it behind which the part cannot go on. -/
theorem Derivation.read?_eq_some {p : Part} (d : Derivation p)
    (htokens : TypeName.tokens cs = d.tokens ++ ts) (hend : p.EndsAt ts)
    (hdepth : 4 * (d.tokens ++ ts).length + p.depth ≤ n) :
    ∃ rest, p.read? n cs = some (d.shape, rest) ∧ TypeName.tokens rest = ts := by
  -- Each token that is taken leaves depth for four more readers, and no three start without one.
  induction d generalizing n cs ts with
  | union first others ihfirst ihothers =>
    obtain ⟨n, rfl⟩ := Part.exists_succ hdepth
    have := List.length_pos_iff.2 (tokens_arrayed_ne_nil first)
    simp only [tokens, List.append_assoc, List.length_append, Part.depth] at htokens hdepth
    obtain ⟨next, hfirst, hnext⟩ := ihfirst (n := n) htokens
      (endsAt_members others (hend.mono (by decide)))
      (by simp only [List.length_append, Part.depth]; omega)
    obtain ⟨rest, hothers, hrest⟩ := ihothers (n := n) hnext (hend.mono (by decide))
      (by simp only [List.length_append, Part.depth]; omega)
    simp only [Part.read?] at hfirst hothers
    refine ⟨rest, ?_, hrest⟩
    simp only [Part.read?, union?, hfirst, hothers, Option.bind_eq_bind, Option.bind_some]
    rfl
  | noMember =>
    obtain ⟨n, rfl⟩ := Part.exists_succ hdepth
    have hstop : eat? '|' cs = none :=
      eat?_eq_none (by decide) (by rw [htokens]; exact hend '|' (by decide))
    refine ⟨cs, ?_, htokens⟩
    simp only [Part.read?, members?, hstop]
    rfl
  | member next others ihnext ihothers =>
    obtain ⟨n, rfl⟩ := Part.exists_succ hdepth
    simp only [tokens, List.append_assoc, List.cons_append, List.length_append, List.length_cons,
      Part.depth] at htokens hdepth
    obtain ⟨inside, hbar, hinside⟩ := eat?_of_tokens htokens
    obtain ⟨more, hmember, hmore⟩ := ihnext (n := n) hinside (endsAt_members others hend)
      (by simp only [List.length_append, Part.depth]; omega)
    obtain ⟨rest, hothers, hrest⟩ := ihothers (n := n) hmore hend
      (by simp only [List.length_append, Part.depth]; omega)
    simp only [Part.read?] at hmember hothers
    refine ⟨rest, ?_, hrest⟩
    simp only [Part.read?, members?, hbar, hmember, hothers, Option.bind_eq_bind, Option.bind_some]
    rfl
  | arrayed primary pairs ih =>
    obtain ⟨n, rfl⟩ := Part.exists_succ hdepth
    have := List.length_pos_iff.2 (tokens_primary_ne_nil primary)
    simp only [tokens, List.append_assoc, List.length_append, length_bracketPairs, Part.depth]
      at htokens hdepth
    obtain ⟨next, helement, hnext⟩ := ih (n := n) htokens (endsAt_bracketPairs pairs hend)
      (by simp only [List.length_append, length_bracketPairs, Part.depth]; omega)
    obtain ⟨rest, hpairs, hrest⟩ :=
      brackets?_eq_some (n := n - pairs - 1) primary.shape hnext hend
    rw [show n - pairs - 1 + pairs + 1 = n by omega] at hpairs
    simp only [Part.read?] at helement
    refine ⟨rest, ?_, hrest⟩
    simp only [Part.read?, arrayed?, helement, Option.bind_eq_bind, Option.bind_some]
    exact hpairs
  | parens inner ih =>
    obtain ⟨n, rfl⟩ := Part.exists_succ hdepth
    simp only [tokens, List.append_assoc, List.cons_append, List.nil_append, List.length_append,
      List.length_cons, Part.depth] at htokens hdepth
    obtain ⟨inside, hopen, hinside⟩ := eat?_of_tokens htokens
    obtain ⟨next, hinner, hnext⟩ := ih (n := n) hinside (Part.endsAt_mark (by decide))
      (by simp only [List.length_append, List.length_cons, Part.depth]; omega)
    obtain ⟨rest, hclose, hrest⟩ := eat?_of_tokens hnext
    simp only [Part.read?] at hinner
    refine ⟨rest, ?_, hrest⟩
    simp only [Part.read?, primary?, hopen, hinner, hclose, Option.bind_eq_bind, Option.bind_some]
    rfl
  | name text =>
    obtain ⟨n, rfl⟩ := Part.exists_succ hdepth
    obtain ⟨rest, hname, hrest⟩ := name?_of_tokens htokens
    have hunopened : eat? '(' cs = none := eat?_eq_none (by decide) (by rw [htokens]; simp [tokens])
    have hstop : eat? '<' rest = none :=
      eat?_eq_none (by decide) (by rw [hrest]; exact hend '<' (by decide))
    refine ⟨rest, ?_, hrest⟩
    simp only [Part.read?, primary?, hunopened, hname, hstop, Option.bind_eq_bind, Option.bind_some]
    rfl
  | applied text first others ihfirst ihothers =>
    obtain ⟨n, rfl⟩ := Part.exists_succ hdepth
    simp only [tokens, List.append_assoc, List.cons_append, List.nil_append, List.length_append,
      List.length_cons, Part.depth] at htokens hdepth
    have hunopened : eat? '(' cs = none := eat?_eq_none (by decide) (by rw [htokens]; simp)
    obtain ⟨before, hname, hbefore⟩ := name?_of_tokens htokens
    obtain ⟨inside, hopen, hinside⟩ := eat?_of_tokens hbefore
    have hclosed : Part.arguments.EndsAt (.mark '>' :: ts) := Part.endsAt_mark (by decide)
    obtain ⟨next, hfirst, hnext⟩ := ihfirst (n := n) hinside (endsAt_arguments others hclosed)
      (by simp only [List.length_append, List.length_cons, Part.depth]; omega)
    obtain ⟨last, hothers, hlast⟩ := ihothers (n := n) hnext hclosed
      (by simp only [List.length_append, List.length_cons, Part.depth]; omega)
    obtain ⟨rest, hclose, hrest⟩ := eat?_of_tokens hlast
    simp only [Part.read?] at hfirst hothers
    refine ⟨rest, ?_, hrest⟩
    simp only [Part.read?, primary?, hunopened, hname, hopen, hfirst, hothers, hclose,
      Option.bind_eq_bind, Option.bind_some]
    rfl
  | noArgument =>
    obtain ⟨n, rfl⟩ := Part.exists_succ hdepth
    have hstop : eat? ',' cs = none :=
      eat?_eq_none (by decide) (by rw [htokens]; exact hend ',' (by decide))
    refine ⟨cs, ?_, htokens⟩
    simp only [Part.read?, arguments?, hstop]
    rfl
  | argument next others ihnext ihothers =>
    obtain ⟨n, rfl⟩ := Part.exists_succ hdepth
    simp only [tokens, List.append_assoc, List.cons_append, List.length_append, List.length_cons,
      Part.depth] at htokens hdepth
    obtain ⟨inside, hcomma, hinside⟩ := eat?_of_tokens htokens
    obtain ⟨more, hargument, hmore⟩ := ihnext (n := n) hinside (endsAt_arguments others hend)
      (by simp only [List.length_append, Part.depth]; omega)
    obtain ⟨rest, hothers, hrest⟩ := ihothers (n := n) hmore hend
      (by simp only [List.length_append, Part.depth]; omega)
    simp only [Part.read?] at hargument hothers
    refine ⟨rest, ?_, hrest⟩
    simp only [Part.read?, arguments?, hcomma, hargument, hothers, Option.bind_eq_bind,
      Option.bind_some]
    rfl

/-! ## Texts that have a shape -/

theorem exists_derivation_of_parse? {shape : Shape} (h : parse? cs = some shape) :
    ∃ d : Derivation .union, d.tokens = tokens cs ∧ d.shape = shape := by
  rw [parse?] at h
  split at h
  · cases h
  · rename_i found rest hread
    split at h
    · rename_i hblank
      cases h
      have hread : Part.union.read? (depthBound cs) cs = some (shape, rest) := hread
      obtain ⟨d, hshape, htokens⟩ := Part.exists_derivation hread
      rw [tokens_eq_nil_iff.2 hblank, List.append_nil] at htokens
      exact ⟨d, htokens.symm, hshape⟩
    · cases h

theorem parse?_of_tokens {d : Derivation .union} (h : d.tokens = tokens cs) :
    parse? cs = some d.shape := by
  have hroom : 4 * (d.tokens ++ []).length + Part.union.depth ≤ depthBound cs := by
    have := length_tokens_le cs
    rw [List.append_nil, h, Part.depth, depthBound]
    omega
  obtain ⟨rest, hread, hrest⟩ :=
    d.read?_eq_some (by rw [h, List.append_nil]) Part.union.endsAt_nil hroom
  simp only [Part.read?] at hread
  rw [parse?, hread]
  exact if_pos (tokens_eq_nil_iff.1 hrest)

/-- A text has a shape exactly when its tokens have a derivation from the grammar; there is only one
derivation, and the shape is what it denotes. -/
theorem parse?_eq_some_iff_derivation (cs : List Char) :
    (∀ shape, parse? cs = some shape ↔
      ∃ d : Derivation .union, d.tokens = tokens cs ∧ d.shape = shape) ∧
    ∀ d d' : Derivation .union, d.tokens = tokens cs → d'.tokens = tokens cs → d = d' := by
  refine ⟨fun shape => ⟨exists_derivation_of_parse?, ?_⟩, fun d d' hd hd' => ?_⟩
  · rintro ⟨d, htokens, rfl⟩
    exact parse?_of_tokens htokens
  · exact Derivation.eq_of_tokens_eq (hd.trans hd'.symm)

end DocBlock.TypeName
