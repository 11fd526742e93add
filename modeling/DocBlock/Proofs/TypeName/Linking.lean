import DocBlock.Proofs.TypeName.Translation
import Mathlib.Data.List.Forall2

/-! # Links in place of queries

Formatting puts links in place of type queries last. This changes the names of a type and nothing else:
blanks and delimiters stay where they are, and a changed name is a name that ends in a dot or starts with a
repeat marker only if it did so before (`LinkedName`). The tokens of the result are therefore those of the
text with other names (`tokens_linkQueries`), and they have a derivation exactly when those of the text have
one (`Derivation.exists_renamed`). -/

namespace DocBlock.TypeName

open Shape (isDelimiter)

variable {p : Part} {c : Char} {cs v w : List Char} {ts us vs : List Token}

/-! ## Names with links -/

/-- A link holds no query, and putting links in makes none. -/
theorem settles_queries : Text.Settles "typeof ".toList "@link ".toList where
  pattern_ne := by decide
  new_ne := by decide
  apart := by
    rintro c ⟨⟩
    decide
  fresh := by
    rintro c ⟨⟩
    decide

theorem linkQueries_linkQueries (cs : List Char) : linkQueries (linkQueries cs) = linkQueries cs :=
  Text.replaceAll_replaceAll settles_queries cs

theorem linkQueries_query (rest : List Char) :
    linkQueries ("typeof ".toList ++ rest) = "@link ".toList ++ linkQueries rest :=
  Text.replaceAll_pattern settles_queries.pattern_ne rest

theorem linkQueries_cons (h : ¬ "typeof ".toList <+: c :: cs) :
    linkQueries (c :: cs) = c :: linkQueries cs :=
  Text.replaceAll_cons h

theorem linkQueries_append_mark (hc : isDelimiter c = true) (a b : List Char) :
    linkQueries (a ++ c :: b) = linkQueries a ++ c :: linkQueries b := by
  have hrun : IsRun "typeof ".toList := by decide
  have hout : c ∉ "typeof ".toList := fun hmem => by simp [hrun c hmem] at hc
  exact Text.replaceAll_append_cons settles_queries.pattern_ne hout a b

theorem linkQueries_blanks (hw : ∀ d ∈ w, Text.isBlank d = true) : linkQueries w = w := by
  refine Text.replaceAll_eq_self fun hquery => ?_
  have hmem : 't' ∈ w := hquery.subset (by decide)
  exact absurd (hw 't' hmem) (by decide)

theorem linkQueries_blanks_append (hw : ∀ d ∈ w, Text.isBlank d = true) (cs : List Char) :
    linkQueries (w ++ cs) = w ++ linkQueries cs := by
  induction w with
  | nil => rfl
  | cons d w ih =>
    have hd : Text.isBlank d = true := hw d List.mem_cons_self
    have hkept : ¬ "typeof ".toList <+: d :: (w ++ cs) := by
      intro hstart
      obtain ⟨ht, -⟩ := List.cons_prefix_cons.1 hstart
      rw [← ht] at hd
      exact absurd hd (by decide)
    have hrest := ih fun e he => hw e (List.mem_cons_of_mem d he)
    rw [List.cons_append, linkQueries_cons hkept, hrest, List.cons_append]

/-- A text that starts with no blank still starts with none. -/
theorem trimStart_linkQueries (h : Text.trimStart cs = cs) :
    Text.trimStart (linkQueries cs) = linkQueries cs := by
  induction cs using Text.replaceAll_induction settles_queries.pattern_ne with
  | empty => rfl
  | found rest _ =>
    rw [linkQueries_query]
    exact Text.trimStart_cons_of_solid (by decide)
  | kept d ds hkept _ =>
    have hd : Text.isBlank d = false := Text.isBlank_head_trimStart (by rw [h]; rfl)
    rw [linkQueries_cons hkept]
    exact Text.trimStart_cons_of_solid hd

/-- The last character of a query that is no blank, and what stands behind it. -/
theorem eq_of_query_split {a blanks : List Char} (hc : Text.isBlank c = false)
    (hblanks : ∀ d ∈ blanks, Text.isBlank d = true) (h : "typeof ".toList = a ++ c :: blanks) :
    a = "typeo".toList ∧ c = 'f' ∧ blanks = " ".toList := by
  have hword : "typeo".toList ++ ['f'] = a ++ [c] := by
    have hend := congrArg Text.trimEnd h
    rwa [List.append_cons, Text.trimEnd_append_blanks hblanks, Text.trimEnd_concat_of_solid hc]
      at hend
  obtain ⟨rfl, hlast⟩ := List.append_inj' hword rfl
  obtain rfl : 'f' = c := List.head_eq_of_cons_eq hlast
  have hbehind : "typeof".toList ++ " ".toList = "typeof".toList ++ blanks := h
  exact ⟨rfl, rfl, (List.append_cancel_left hbehind).symm⟩

/-- What stands behind the last character of a text that is no blank stays, and this character changes
only at the end of a query. -/
theorem exists_linkQueries_solid (hc : Text.isBlank c = false)
    (hw : ∀ d ∈ w, Text.isBlank d = true) (a : List Char) :
    ∃ b d, linkQueries (a ++ c :: w) = b ++ d :: w ∧ Text.isBlank d = false ∧ (d = '.' ↔ c = '.') := by
  generalize htext : a ++ c :: w = text
  induction text using Text.replaceAll_induction settles_queries.pattern_ne generalizing a with
  | empty => cases a <;> cases htext
  | found rest ih =>
    rw [linkQueries_query]
    rcases List.append_eq_append_iff.1 htext with ⟨more, hpattern, hbehind⟩ | ⟨inside, -, hrest⟩
    · cases more with
      | nil =>
        obtain ⟨b, d, hlinked, hd⟩ := ih [] hbehind
        exact ⟨"@link ".toList ++ b, d, by rw [hlinked, List.append_assoc], hd⟩
      | cons d blanks =>
        -- The query ends behind the character, so the character is the last one of its word.
        obtain ⟨rfl, rfl⟩ := List.cons.inj hbehind
        have hblanks : ∀ e ∈ blanks, Text.isBlank e = true :=
          fun e he => hw e (List.mem_append_left rest he)
        have hrest : linkQueries rest = rest :=
          linkQueries_blanks fun e he => hw e (List.mem_append_right blanks he)
        obtain ⟨-, rfl, rfl⟩ := eq_of_query_split hc hblanks hpattern
        exact ⟨"@lin".toList, 'k', by rw [hrest]; rfl, by decide, by decide⟩
    · obtain ⟨b, d, hlinked, hd⟩ := ih inside hrest.symm
      exact ⟨"@link ".toList ++ b, d, by rw [hlinked, List.append_assoc], hd⟩
  | kept d ds hkept ih =>
    rw [linkQueries_cons hkept]
    cases a with
    | nil =>
      obtain ⟨rfl, rfl⟩ := List.cons.inj htext
      exact ⟨[], c, by rw [linkQueries_blanks hw, List.nil_append], hc, Iff.rfl⟩
    | cons e a =>
      obtain ⟨rfl, hds⟩ := List.cons.inj htext
      obtain ⟨b, d, hlinked, hd⟩ := ih a hds
      exact ⟨e :: b, d, by rw [hlinked, List.cons_append], hd⟩

/-- A name that links can make of another one. -/
structure LinkedName (new old : List Char) : Prop where
  isName : IsName new
  dotted_iff : new.getLast? = some '.' ↔ old.getLast? = some '.'
  marked : "...".toList <+: new → "...".toList <+: old

/-- Links make no repeat marker. -/
theorem marked_of_linkQueries (h : "...".toList <+: linkQueries cs) : "...".toList <+: cs := by
  refine Text.prefix_of_prefix_replaceAll settles_queries ?_ h
  rintro c ⟨⟩
  decide

/-- A repeat marker in front of a text with blanks behind it stands in front of the text. -/
theorem marked_of_append_blanks (hv : ∀ d ∈ v, Text.isBlank d = true)
    (h : "...".toList <+: w ++ v) : "...".toList <+: w := by
  cases v with
  | nil => rwa [List.append_nil] at h
  | cons d v =>
    refine Text.prefix_of_prefix_append_cons (fun hmem => ?_) h
    have hdots : Text.IsSolid "...".toList := by decide
    have hd := hdots d hmem
    rw [hv d List.mem_cons_self] at hd
    cases hd

theorem isRun_linkQueries {run : List Char} (hrun : IsRun run) : IsRun (linkQueries run) := by
  have hlink : IsRun "@link ".toList := by decide
  intro c hc
  exact (Text.mem_replaceAll settles_queries.pattern_ne hc).elim (hrun c) (hlink c)

/-- Putting links into a name before blanks keeps the blanks and gives a name. -/
theorem IsName.exists_linked (h : IsName w) (hv : ∀ d ∈ v, Text.isBlank d = true) :
    ∃ new, linkQueries (w ++ v) = new ++ v ∧ LinkedName new w := by
  obtain ⟨a, c, hw, hc⟩ := Text.exists_concat_of_trim h.trimmed h.ne_nil
  -- A query can reach from the name into the blanks, so the name is followed up to its last character.
  obtain ⟨b, d, hlinked, hd, hdot⟩ := exists_linkQueries_solid hc hv a
  rw [List.append_cons a, ← hw, List.append_cons b] at hlinked
  have hstart : Text.trimStart (b ++ [d] ++ v) = b ++ [d] ++ v := by
    have hname : Text.trimStart w = w := by rw [← h.trimmed, Text.trimStart_trim]
    rw [← hlinked]
    apply trimStart_linkQueries
    rw [Text.trimStart_append_of_ne_nil (by rw [hname]; exact h.ne_nil), hname]
  have hrun : IsRun (b ++ [d]) := by
    have hall := isRun_linkQueries (h.isRun.append (isRun_blanks hv))
    rw [hlinked] at hall
    exact fun e he => hall e (List.mem_append_left v he)
  have htrim : Text.trim (b ++ [d]) = b ++ [d] :=
    Text.trim_eq_self (Text.trimStart_eq_self_of_append hstart (Text.trimStart_concat_ne_nil hd))
      (Text.trimEnd_concat_of_solid hd)
  have hmarked : "...".toList <+: b ++ [d] → "...".toList <+: w := by
    intro hmarked
    have hlonger : "...".toList <+: linkQueries (w ++ v) := by
      rw [hlinked]
      exact hmarked.trans (List.prefix_append _ v)
    exact marked_of_append_blanks hv (marked_of_linkQueries hlonger)
  exact ⟨b ++ [d], hlinked, ⟨by simp, htrim, hrun⟩, by simp [hw, hdot], hmarked⟩

/-! ## Tokens with links -/

/-- Whether two tokens are the same delimiter, or names that are related. -/
def Token.Alike (related : List Char → List Char → Prop) : Token → Token → Prop
  | mark c, mark d => c = d
  | name new, name old => related new old
  | _, _ => False

/-- Whether some tokens are others with names that links can make. -/
def Linked (ts us : List Token) : Prop :=
  List.Forall₂ (Token.Alike LinkedName) ts us

theorem Linked.append {ts' us' : List Token} (h : Linked ts us) (h' : Linked ts' us') :
    Linked (ts ++ ts') (us ++ us') :=
  List.rel_append h h'

theorem Linked.mark (h : Linked ts us) : Linked (.mark c :: ts) (.mark c :: us) :=
  .cons rfl h

theorem linked_name (h : LinkedName v w) : Linked [.name v] [.name w] :=
  .cons h .nil

theorem Linked.repeated (h : Linked ts us) (hrepeated : Repeated ts) : Repeated us := by
  obtain ⟨text, hfirst, hmarker⟩ := hrepeated
  cases h with
  | nil => cases hfirst
  | @cons t u ts us htoken hrest =>
    cases hfirst
    cases u with
    | mark d => cases htoken
    | name old => exact ⟨old, rfl, LinkedName.marked htoken hmarker⟩

theorem Linked.flip (h : Linked ts us) :
    List.Forall₂ (Token.Alike fun new old => LinkedName old new) us ts := by
  refine List.Forall₂.flip (h.imp fun t u htoken => ?_)
  cases t <;> cases u
  · exact Eq.symm htoken
  · cases htoken
  · cases htoken
  · exact htoken

theorem isName_trim {run : List Char} (hrun : IsRun run) (hne : Text.trim run ≠ []) :
    IsName (Text.trim run) :=
  ⟨hne, Text.trim_trim run, fun c hc => hrun c ((Text.trim_infix run).subset hc)⟩

theorem linked_run {run : List Char} (hrun : IsRun run) :
    Linked (runTokens (linkQueries run)) (runTokens run) := by
  by_cases hblank : Text.trim run = []
  · rw [linkQueries_blanks (Text.trim_eq_nil_iff.1 hblank), runTokens, hblank]
    exact .nil
  · obtain ⟨v, w, hv, hw, hsplit⟩ := Text.exists_blanks_append_trim run
    have hname := isName_trim hrun hblank
    obtain ⟨new, hlinked, hnew⟩ := hname.exists_linked hw
    have hresult : linkQueries run = v ++ (new ++ w) := by
      rw [← hlinked, ← linkQueries_blanks_append hv, ← hsplit]
    have hold : runTokens run = [.name (Text.trim run)] := by
      rw [runTokens, if_neg (by simpa using hblank)]
    rw [hresult, runTokens_blanks_append hv, runTokens_append_blanks hw, hnew.isName.runTokens_eq,
      hold]
    exact linked_name hnew

/-- The tokens of a text with links in it are those of the text with other names. -/
theorem tokens_linkQueries (cs : List Char) : Linked (tokens (linkQueries cs)) (tokens cs) := by
  induction cs using runs_induction with
  | last run hrun =>
    rw [tokens_run (isRun_linkQueries hrun), tokens_run hrun]
    exact linked_run hrun
  | more run c cs hrun hc ih =>
    rw [linkQueries_append_mark hc, tokens_run_append (isRun_linkQueries hrun) hc,
      tokens_run_append hrun hc]
    exact (linked_run hrun).append ih.mark

/-- A delimiter is spelled with blanks around it. -/
theorem Token.exists_mark_spelling (c : Char) : ∃ v w, (∀ d ∈ v, Text.isBlank d = true) ∧
    (∀ d ∈ w, Text.isBlank d = true) ∧ (mark c).spelling = v ++ c :: w := by
  have hnone : ∀ d ∈ ([] : List Char), Text.isBlank d = true := List.forall_mem_nil _
  have hblank : ∀ d ∈ [' '], Text.isBlank d = true := List.forall_mem_singleton.2 (by decide)
  rw [spelling]
  split
  · rename_i hcomma
    exact ⟨[], [' '], hnone, hblank, by rw [hcomma]; rfl⟩
  · split
    · rename_i hbar
      exact ⟨[' '], [' '], hblank, hblank, by rw [hbar]; rfl⟩
    · exact ⟨[], [], hnone, hnone, rfl⟩

theorem exists_linked_run {run : List Char} (hrun : IsRun run)
    (hv : ∀ d ∈ v, Text.isBlank d = true) :
    ∃ ts, Linked ts (runTokens run) ∧
      linkQueries (spellingOf (runTokens run) ++ v) = spellingOf ts ++ v := by
  rw [runTokens]
  split
  · exact ⟨[], .nil, linkQueries_blanks hv⟩
  · rename_i hblank
    have hname := isName_trim hrun (by simpa using hblank)
    obtain ⟨new, hlinked, hnew⟩ := hname.exists_linked hv
    refine ⟨[.name new], linked_name hnew, ?_⟩
    simpa [Token.spelling] using hlinked

/-- A spelling with links in it is the spelling of the tokens with other names. -/
theorem exists_linked_spelling (cs : List Char) :
    ∃ ts, Linked ts (tokens cs) ∧ linkQueries (spellingOf (tokens cs)) = spellingOf ts := by
  induction cs using runs_induction with
  | last run hrun =>
    obtain ⟨ts, hts, hspelling⟩ := exists_linked_run (v := []) hrun (by simp)
    rw [List.append_nil, List.append_nil] at hspelling
    rw [tokens_run hrun]
    exact ⟨ts, hts, hspelling⟩
  | more run c cs hrun hc ih =>
    obtain ⟨v, w, hv, hw, hmark⟩ := Token.exists_mark_spelling c
    obtain ⟨ts, hts, hbefore⟩ := exists_linked_run hrun hv
    obtain ⟨us, hus, hbehind⟩ := ih
    rw [tokens_run_append hrun hc]
    refine ⟨ts ++ .mark c :: us, hts.append hus.mark, ?_⟩
    calc linkQueries (spellingOf (runTokens run ++ .mark c :: tokens cs))
        = linkQueries ((spellingOf (runTokens run) ++ v) ++ c :: (w ++ spellingOf (tokens cs))) := by
          simp [hmark]
      _ = spellingOf ts ++ v ++ c :: (w ++ spellingOf us) := by
          rw [linkQueries_append_mark hc, hbefore, linkQueries_blanks_append hw, hbehind]
      _ = spellingOf (ts ++ .mark c :: us) := by
          simp [hmark]

/-! ## Derivations with other names -/

section Renamed

variable {related : List Char → List Char → Prop}

theorem exists_marked (h : List.Forall₂ (Token.Alike related) ts (.mark c :: us)) :
    ∃ ts', ts = .mark c :: ts' ∧ List.Forall₂ (Token.Alike related) ts' us := by
  obtain ⟨t, ts', ht, hrest, rfl⟩ := List.forall₂_cons_right_iff.1 h
  cases t with
  | name new => cases ht
  | mark d =>
    cases ht
    exact ⟨ts', rfl, hrest⟩

theorem eq_bracketPairs {pairs : Nat}
    (h : List.Forall₂ (Token.Alike related) ts (bracketPairs pairs)) : ts = bracketPairs pairs := by
  induction pairs generalizing ts with
  | zero => exact List.forall₂_nil_right_iff.1 h
  | succ pairs ih =>
    obtain ⟨ts, rfl, hclose⟩ := exists_marked h
    obtain ⟨ts, rfl, hpairs⟩ := exists_marked hclose
    rw [ih hpairs, bracketPairs]

theorem exists_named (h : List.Forall₂ (Token.Alike related) ts (.name w :: us)) :
    ∃ new ts', ts = .name new :: ts' ∧ related new w ∧ List.Forall₂ (Token.Alike related) ts' us := by
  obtain ⟨t, ts', ht, hrest, rfl⟩ := List.forall₂_cons_right_iff.1 h
  cases t with
  | mark d => cases ht
  | name new => exact ⟨new, ts', rfl, ht, hrest⟩

theorem exists_appended (h : List.Forall₂ (Token.Alike related) ts (us ++ vs)) :
    ∃ ts₁ ts₂, ts = ts₁ ++ ts₂ ∧ List.Forall₂ (Token.Alike related) ts₁ us ∧
      List.Forall₂ (Token.Alike related) ts₂ vs :=
  ⟨_, _, (List.take_append_drop us.length ts).symm, List.forall₂_take_append _ _ _ h,
    List.forall₂_drop_append _ _ _ h⟩

/-- Tokens that are those of a derivation with other names have a derivation too, and what holds of the
names carries over. -/
theorem Derivation.exists_renamed {bare bare' applied applied' : List Char → Prop} {pairs : Nat → Prop}
    {d : Derivation p} (h : List.Forall₂ (Token.Alike related) ts d.tokens)
    (heach : d.Each bare applied pairs) (hbare : ∀ new old, related new old → bare old → bare' new)
    (happlied : ∀ new old, related new old → applied old → applied' new) :
    ∃ d' : Derivation p, d'.tokens = ts ∧ d'.Each bare' applied' pairs := by
  -- Delimiters are the same on both sides, so the other tokens divide where those of `d` do.
  induction d generalizing ts with
  | union first others ihfirst ihothers =>
    obtain ⟨ts₁, ts₂, rfl, hfirst, hothers⟩ := exists_appended h
    obtain ⟨first', rfl, hfirst'⟩ := ihfirst hfirst heach.1
    obtain ⟨others', rfl, hothers'⟩ := ihothers hothers heach.2
    exact ⟨.union first' others', rfl, hfirst', hothers'⟩
  | noMember => exact ⟨.noMember, (List.forall₂_nil_right_iff.1 h).symm, trivial⟩
  | member next others ihnext ihothers =>
    obtain ⟨ts, rfl, hmember⟩ := exists_marked h
    obtain ⟨ts₁, ts₂, rfl, hnext, hothers⟩ := exists_appended hmember
    obtain ⟨next', rfl, hnext'⟩ := ihnext hnext heach.1
    obtain ⟨others', rfl, hothers'⟩ := ihothers hothers heach.2
    exact ⟨.member next' others', rfl, hnext', hothers'⟩
  | arrayed primary n ih =>
    obtain ⟨ts₁, ts₂, rfl, hprimary, hpairs⟩ := exists_appended h
    obtain ⟨primary', rfl, hprimary'⟩ := ih hprimary heach.1
    exact ⟨.arrayed primary' n, by rw [tokens, eq_bracketPairs hpairs], hprimary', heach.2⟩
  | parens inner ih =>
    obtain ⟨ts, rfl, hinner⟩ := exists_marked h
    obtain ⟨ts₁, ts₂, rfl, hinner, hclose⟩ := exists_appended hinner
    obtain ⟨inner', rfl, hinner'⟩ := ih hinner heach
    obtain ⟨ts, rfl, hend⟩ := exists_marked hclose
    exact ⟨.parens inner', by rw [tokens, List.forall₂_nil_right_iff.1 hend], hinner'⟩
  | name text =>
    obtain ⟨new, ts, rfl, hnew, hend⟩ := exists_named h
    exact ⟨.name new, by rw [tokens, List.forall₂_nil_right_iff.1 hend], hbare new text hnew heach⟩
  | applied text first others ihfirst ihothers =>
    obtain ⟨new, ts, rfl, hnew, hopen⟩ := exists_named h
    obtain ⟨ts, rfl, harguments⟩ := exists_marked hopen
    obtain ⟨ts', ts₃, rfl, harguments, hclose⟩ := exists_appended harguments
    obtain ⟨ts₁, ts₂, rfl, hfirst, hothers⟩ := exists_appended harguments
    obtain ⟨first', rfl, hfirst'⟩ := ihfirst hfirst heach.2.1
    obtain ⟨others', rfl, hothers'⟩ := ihothers hothers heach.2.2
    obtain ⟨ts, rfl, hend⟩ := exists_marked hclose
    exact ⟨.applied new first' others', by rw [tokens, List.forall₂_nil_right_iff.1 hend],
      happlied new text hnew heach.1, hfirst', hothers'⟩
  | noArgument => exact ⟨.noArgument, (List.forall₂_nil_right_iff.1 h).symm, trivial⟩
  | argument next others ihnext ihothers =>
    obtain ⟨ts, rfl, hargument⟩ := exists_marked h
    obtain ⟨ts₁, ts₂, rfl, hnext, hothers⟩ := exists_appended hargument
    obtain ⟨next', rfl, hnext'⟩ := ihnext hnext heach.1
    obtain ⟨others', rfl, hothers'⟩ := ihothers hothers heach.2
    exact ⟨.argument next' others', rfl, hnext', hothers'⟩

end Renamed

end DocBlock.TypeName
