import DocBlock.Glob.Pattern
import DocBlock.Proofs.Error

/-! # What patterns are read from

A text without special characters is read as itself (`literal?_of_plain`), and a pattern that only
matches one text was read from that text (`eq_of_literal?`). -/

namespace DocBlock.Glob

variable {cs rest : List Char} {tokens : List Token} {s name : String} {pattern : Pattern}

/-- A text without the characters that mean something in patterns. -/
def Plain (cs : List Char) : Prop :=
  ∀ c ∈ cs, c ≠ '*' ∧ c ≠ '?' ∧ c ≠ '['

-- The characters of the text are gone through, not all characters that there are.
instance (cs : List Char) : Decidable (Plain cs) :=
  List.decidableBAll _ cs

theorem literalChar?_of_classToken? {token : Token} {after : List Char}
    (h : classToken? cs = some (token, after)) : token.literalChar? = none := by
  unfold classToken? at h
  split at h
  · obtain ⟨chars, -, hchars⟩ := Option.map_eq_some_iff.1 h
    obtain ⟨rfl, -⟩ := Prod.mk.inj hchars
    rfl
  · obtain ⟨chars, -, hchars⟩ := Option.map_eq_some_iff.1 h
    obtain ⟨rfl, -⟩ := Prod.mk.inj hchars
    rfl

/-- The first token that is read from a text is none for one character, or it is that for the first
character and the other ones are read from the rest. -/
theorem readTokens_cons {n position : Nat} {before : Option Char} {c : Char}
    (h : readTokens (n + 1) position before (c :: rest) = .ok tokens) :
    (∃ token more, tokens = token :: more ∧ token.literalChar? = none) ∨
      ∃ more, tokens = .literal c :: more ∧ readTokens n (position + 1) (some c) rest = .ok more := by
  have hbind : ∀ {x : Except PatternError (List Token)} {token : Token},
      (do return token :: (← x)) = Except.ok tokens → ∃ more, tokens = token :: more ∧ x = .ok more := by
    intro x token hx
    obtain ⟨more, hmore, htokens⟩ := Error.bind_eq_ok.1 hx
    exact ⟨more, (Except.ok.inj htokens).symm, hmore⟩
  -- Only the last branch reads a token for the character itself.
  unfold readTokens at h
  split at h
  · obtain ⟨more, htokens, -⟩ := hbind h
    exact .inl ⟨_, more, htokens, rfl⟩
  · split at h
    · simp only at h
      split at h
      · cases h
      · split at h
        · obtain ⟨more, htokens, -⟩ := hbind h
          exact .inl ⟨_, more, htokens, rfl⟩
        · split at h
          · cases h
          · split at h
            · exact .inl ⟨_, [], (Except.ok.inj h).symm, rfl⟩
            · split at h
              · obtain ⟨more, htokens, -⟩ := hbind h
                exact .inl ⟨_, more, htokens, rfl⟩
              · cases h
    · split at h
      · split at h
        · next token after hclass =>
          obtain ⟨more, htokens, -⟩ := hbind h
          exact .inl ⟨token, more, htokens, literalChar?_of_classToken? hclass⟩
        · cases h
      · exact .inr (hbind h)

theorem eq_of_mapM_literalChar? (n : Nat) : ∀ {position : Nat} {before : Option Char} {cs : List Char}
    {tokens : List Token} {text : List Char}, cs.length ≤ n →
    readTokens n position before cs = .ok tokens →
    tokens.mapM Token.literalChar? = some text → text = cs := by
  induction n with
  | zero =>
    intro position before cs tokens text hlength hread htext
    obtain rfl := List.length_eq_zero_iff.1 (Nat.le_zero.1 hlength)
    obtain rfl := Except.ok.inj hread
    cases htext
    rfl
  | succ n ih =>
    intro position before cs tokens text hlength hread htext
    cases cs with
    | nil =>
      obtain rfl := Except.ok.inj hread
      cases htext
      rfl
    | cons c rest =>
      rcases readTokens_cons hread with ⟨token, more, rfl, hnone⟩ | ⟨more, rfl, hmore⟩
      · simp [List.mapM_cons, hnone] at htext
      · cases hrest : more.mapM Token.literalChar? with
        | none => simp [List.mapM_cons, Token.literalChar?, hrest] at htext
        | some text' =>
          have htail := ih (Nat.le_of_succ_le_succ hlength) hmore hrest
          simp [List.mapM_cons, Token.literalChar?, hrest] at htext
          rw [← htext, htail]

theorem readTokens_of_ofString (h : Pattern.ofString s = .ok pattern) :
    readTokens s.toList.length 0 none s.toList = .ok pattern.tokens := by
  obtain ⟨tokens, hread, hpattern⟩ := Error.bind_eq_ok.1 h
  rw [String.length_toList, hread, ← Except.ok.inj hpattern]

/-- A pattern that only matches one text was read from that text. -/
theorem Pattern.eq_of_literal? (h : Pattern.ofString s = .ok pattern)
    (hname : pattern.literal? = some name) : name = s := by
  obtain ⟨text, htext, rfl⟩ := Option.map_eq_some_iff.1 hname
  rw [eq_of_mapM_literalChar? _ (Nat.le_refl _) (readTokens_of_ofString h) htext]
  exact String.ofList_toList

theorem mapM_literalChar?_map_literal (cs : List Char) :
    (cs.map Token.literal).mapM Token.literalChar? = some cs := by
  induction cs with
  | nil => rfl
  | cons c cs ih => simp [List.mapM_cons, Token.literalChar?, ih]

theorem readTokens_plain (n : Nat) : ∀ {position : Nat} {before : Option Char} {cs : List Char},
    Plain cs → cs.length ≤ n → readTokens n position before cs = .ok (cs.map .literal) := by
  induction n with
  | zero =>
    intro position before cs _ hlength
    obtain rfl := List.length_eq_zero_iff.1 (Nat.le_zero.1 hlength)
    rfl
  | succ n ih =>
    intro position before cs hplain hlength
    cases cs with
    | nil => rfl
    | cons c rest =>
      obtain ⟨hstar, hany, hclass⟩ := hplain c List.mem_cons_self
      have hrest : readTokens n (position + 1) (some c) rest = .ok (rest.map .literal) :=
        ih (fun x hx => hplain x (List.mem_cons_of_mem c hx)) (Nat.le_of_succ_le_succ hlength)
      unfold readTokens
      rw [if_neg (by simpa using hany), if_neg (by simpa using hstar), if_neg (by simpa using hclass), hrest]
      rfl

/-- A text without special characters is read as a pattern that only matches this text. -/
theorem Pattern.literal?_of_plain (hplain : Plain s.toList) (h : Pattern.ofString s = .ok pattern) :
    pattern.literal? = some s := by
  have hread := readTokens_of_ofString h
  rw [readTokens_plain _ hplain (Nat.le_refl _)] at hread
  rw [Pattern.literal?, ← Except.ok.inj hread, mapM_literalChar?_map_literal, Option.map_some,
    String.ofList_toList]

/-- A pattern that begins with a character was read from a text that begins with it. -/
theorem Pattern.head?_of_ofString {c : Char} (h : Pattern.ofString s = .ok pattern)
    (hhead : pattern.tokens.head? = some (.literal c)) : s.toList.head? = some c := by
  have hread := readTokens_of_ofString h
  cases hs : s.toList with
  | nil =>
    rw [hs] at hread
    rw [← Except.ok.inj hread] at hhead
    cases hhead
  | cons first rest =>
    rw [hs] at hread
    rcases readTokens_cons hread with ⟨token, more, htokens, hnone⟩ | ⟨more, htokens, -⟩
    · rw [htokens] at hhead
      rw [Option.some.inj hhead] at hnone
      cases hnone
    · rw [htokens] at hhead
      cases hhead
      rfl

end DocBlock.Glob
