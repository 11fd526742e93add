import Mathlib.Data.List.Forall2
import DocBlock.Glob.Expand
import DocBlock.Proofs.Files.Locating
import DocBlock.Proofs.Glob.Reading

/-! # What patterns find

The components of a pattern without special characters are entered one after the other
(`search_plain`), and from there on what is found goes on by names (`search_visit_goesOn`), unless a component
with special characters begins with a dot. The working directory is not written in front of what is found.
So a pattern below a directory finds paths that go on by names from the directory, without the dot at its
beginning (`goesOn_of_expand`). -/

namespace DocBlock

open Files (FileTree)

namespace Glob

variable {t : FileTree} {c : Candidate} {name s : String} {pattern : Pattern} {onlyDirectories : Bool}

/-! ## Candidates -/

/-- The components in front of what stands below a candidate. -/
def Candidate.trail (c : Candidate) : List PathPart :=
  if c.isHere then [] else c.path.parts

theorem Candidate.trail_of_not_here (h : c.isHere = false) : c.trail = c.path.parts := by
  rw [trail, h]
  rfl

theorem Candidate.isHere_iff : c.isHere = true ↔ c.path.parts = [.here] := by
  rw [isHere, beq_iff_eq]

theorem Candidate.trail_at {p : Path} {parts : List PathPart} (hparts : p.parts = parts)
    (hne : parts ≠ [.here]) : (Candidate.at t p).trail = parts := by
  rw [trail_of_not_here, ← hparts]
  · rfl
  · rw [← Bool.not_eq_true, isHere_iff]
    show p.parts ≠ [.here]
    rwa [hparts]

/-- The working directory is not written in front of what stands below it. -/
theorem Candidate.trail_here (t : FileTree) : (Candidate.at t ⟨"."⟩).trail = [] := by
  have hparts : (⟨"."⟩ : Path).parts = [.here] := by decide
  rw [trail, if_pos (isHere_iff.2 hparts)]

/-- Below a candidate a name is one component more. -/
theorem Candidate.parts_below (hname : Path.IsName name) (hc : c.path.text ≠ "") :
    (c.below name).parts = c.trail ++ [.name name] := by
  unfold below trail
  cases hhere : c.isHere with
  | true => exact hname.parts
  | false => exact hname.parts_join hc

theorem Candidate.text_below (hname : Path.IsName name) (hc : c.path.text ≠ "") :
    (c.below name).text ≠ "" := by
  unfold below
  split
  · exact hname.text_ne_empty
  · exact Path.text_join_ne_empty hc name

/-- What stands below a candidate under a name is not the working directory. -/
theorem Candidate.isHere_below (hname : Path.IsName name) (hc : c.path.text ≠ "") :
    (Candidate.at t (c.below name)).isHere = false := by
  rw [← Bool.not_eq_true, isHere_iff]
  show (c.below name).parts ≠ [.here]
  rw [parts_below hname hc]
  cases c.trail with
  | nil => simp
  | cons part parts => simp

theorem Candidate.trail_below (hname : Path.IsName name) (hc : c.path.text ≠ "") :
    (Candidate.at t (c.below name)).trail = c.trail ++ [.name name] := by
  rw [trail_of_not_here (isHere_below hname hc)]
  exact parts_below hname hc

theorem Candidate.goesOn_accepted {r : Path} (hc : c.isHere = false)
    (hr : r ∈ c.accepted onlyDirectories) : r.GoesOn c.trail := by
  unfold accepted at hr
  split at hr
  · cases hr
  · rw [List.mem_singleton.1 hr, trail_of_not_here hc]
    exact .refl c.path

/-- A component that is looked up is entered, and its path is not empty. -/
theorem search_of_literal {n : Nat} {patterns : List Pattern} {r : Path}
    (hliteral : pattern.literal? = some name) (hc : c.path.text ≠ "")
    (hr : r ∈ search t onlyDirectories (n + 1) c (pattern :: patterns)) :
    (c.below name).text ≠ "" ∧
      r ∈ if patterns.isEmpty then (Candidate.at t (c.below name)).accepted onlyDirectories
        else search t onlyDirectories n (Candidate.at t (c.below name)) patterns := by
  unfold search at hr
  simp only [hliteral, List.mem_ite_nil_right] at hr
  obtain ⟨hfound, hr⟩ := hr
  refine ⟨?_, hr⟩
  intro htext
  have hempty : name = "" := by
    unfold Candidate.below at htext
    split at htext
    · exact htext
    · exact absurd htext (Path.text_join_ne_empty hc name)
  have hpath : (Candidate.at t (c.below name)).path = ⟨""⟩ := by
    show c.below name = ⟨""⟩
    cases hbelow : c.below name
    rw [hbelow] at htext
    exact congrArg Path.mk htext
  rw [hpath, hempty] at hfound
  exact absurd hfound Bool.false_ne_true

/-! ## Names -/

/-- A pattern that stands for names: for one that it is read from, or for some that it matches, where it
does not begin with a dot. -/
structure Pattern.StandsForNames (pattern : Pattern) : Prop where
  literal : ∀ {name}, pattern.literal? = some name → Path.IsName name
  wild : pattern.literal? = none → pattern.tokens.head? ≠ some (.literal '.')

/-- What is found below a candidate by patterns that stand for names goes on from it by names. -/
def SearchGoesOn (t : FileTree) (onlyDirectories : Bool) (n : Nat) : Prop :=
  ∀ {c : Candidate} {patterns : List Pattern} {r : Path},
    (∀ pattern ∈ patterns, pattern.StandsForNames) → c.path.text ≠ "" →
    r ∈ search t onlyDirectories n c patterns → r.GoesOn c.trail

/-- What is found at and below a candidate by patterns that stand for names goes on from it by names. -/
def VisitGoesOn (t : FileTree) (onlyDirectories : Bool) (n : Nat) : Prop :=
  ∀ {c : Candidate} {patterns : List Pattern} {r : Path},
    (∀ pattern ∈ patterns, pattern.StandsForNames) → c.path.text ≠ "" → c.isHere = false →
    r ∈ visit t onlyDirectories n c patterns → r.GoesOn c.trail

theorem searchGoesOn_succ {n : Nat} (ht : t.Proper) (hsearch : SearchGoesOn t onlyDirectories n)
    (hvisit : VisitGoesOn t onlyDirectories n) : SearchGoesOn t onlyDirectories (n + 1) := by
  intro c patterns r hnames hc hr
  cases patterns with
  | nil => cases hr
  | cons pattern patterns =>
    have hbelow : ∀ {name} {r : Path}, Path.IsName name →
        r.GoesOn (Candidate.at t (c.below name)).trail → r.GoesOn c.trail := by
      intro name r hname hr
      rw [Candidate.trail_below hname hc] at hr
      obtain ⟨names, hr⟩ := hr
      exact ⟨name :: names, by rw [hr, List.append_assoc]; rfl⟩
    cases hliteral : pattern.literal? with
    | some name =>
      -- The component is looked up.
      have hname := (hnames pattern List.mem_cons_self).literal hliteral
      obtain ⟨htext, henter⟩ := search_of_literal hliteral hc hr
      apply hbelow hname
      split at henter
      · exact Candidate.goesOn_accepted (Candidate.isHere_below hname hc) henter
      · exact hsearch (fun p hp => hnames p (List.mem_cons_of_mem pattern hp)) htext henter
    | none =>
      -- The component is searched for; it begins with no dot, so only names in the directory match it.
      have hdot := (hnames pattern List.mem_cons_self).wild hliteral
      unfold search at hr
      simp only [hliteral] at hr
      split at hr
      · rw [if_neg (by simpa using hdot), List.reverse_nil, List.flatMap_nil, List.nil_append] at hr
        obtain ⟨name, hlisted, hr⟩ := List.mem_flatMap.1 hr
        have hname := ht.isName_of_mem_list hlisted
        apply hbelow hname
        exact hvisit hnames (Candidate.text_below hname hc) (Candidate.isHere_below hname hc) hr
      · cases hr

theorem visitGoesOn_succ {n : Nat} (hsearch : SearchGoesOn t onlyDirectories n)
    (hvisit : VisitGoesOn t onlyDirectories n) : VisitGoesOn t onlyDirectories (n + 1) := by
  intro c patterns r hnames hc hhere hr
  cases patterns with
  | nil => cases hr
  | cons pattern patterns =>
    have hrest : ∀ p ∈ patterns, p.StandsForNames := fun p hp =>
      hnames p (List.mem_cons_of_mem pattern hp)
    unfold visit at hr
    split at hr
    · -- A pattern for any number of components: the candidate itself, and what is below it.
      have hothers : ∀ p ∈ patterns.dropWhile Pattern.isRecursive, p.StandsForNames := fun p hp =>
        hrest p ((List.dropWhile_suffix _).subset hp)
      have hdeeper : ∀ p ∈ pattern :: patterns.dropWhile Pattern.isRecursive, p.StandsForNames := by
        intro p hp
        rcases List.mem_cons.1 hp with rfl | hp
        · exact hnames p List.mem_cons_self
        · exact hothers p hp
      have hself : ∀ own : List Path, own ⊆ [c.path] →
          r ∈ (if (patterns.dropWhile Pattern.isRecursive).isEmpty then own
            else visit t onlyDirectories n c (patterns.dropWhile Pattern.isRecursive)) →
          r.GoesOn c.trail := by
        intro own hsubset hr
        split at hr
        · rw [List.mem_singleton.1 (hsubset hr), Candidate.trail_of_not_here hhere]
          exact .refl c.path
        · exact hvisit hothers hc hhere hr
      simp only at hr
      split at hr
      · rcases List.mem_append.1 hr with hr | hr
        · exact hself [c.path] (List.Subset.refl _) hr
        · exact hsearch hdeeper hc hr
      · exact hself [] (List.nil_subset _) hr
    · split at hr
      · cases hr
      · split at hr
        · split at hr
          · exact Candidate.goesOn_accepted hhere hr
          · exact hsearch hrest hc hr
        · cases hr

theorem search_visit_goesOn (ht : t.Proper) (n : Nat) :
    SearchGoesOn t onlyDirectories n ∧ VisitGoesOn t onlyDirectories n := by
  induction n with
  | zero =>
    constructor
    · intro c patterns r _ _ hr
      cases hr
    · intro c patterns r _ _ _ hr
      cases hr
  | succ n ih => exact ⟨searchGoesOn_succ ht ih.1 ih.2, visitGoesOn_succ ih.1 ih.2⟩

/-! ## Components without special characters -/

/-- The texts that patterns were read from, in order. -/
abbrev ReadFrom (texts : List String) (patterns : List Pattern) : Prop :=
  List.Forall₂ (fun text pattern => Pattern.ofString text = .ok pattern) texts patterns

theorem readFrom_of_mapM {texts : List String} : ∀ {patterns : List Pattern},
    texts.mapM Pattern.ofString = .ok patterns → ReadFrom texts patterns := by
  induction texts with
  | nil =>
    intro patterns h
    obtain rfl := Except.ok.inj h
    exact .nil
  | cons text texts ih =>
    intro patterns h
    rw [List.mapM_cons] at h
    obtain ⟨pattern, hfirst, h⟩ := Error.bind_eq_ok.1 h
    obtain ⟨others, hothers, h⟩ := Error.bind_eq_ok.1 h
    obtain rfl := Except.ok.inj h
    exact .cons hfirst (ih hothers)

/-- Below a candidate a piece of a path is the component that it stands for, if any. -/
theorem Candidate.trail_below_piece {piece : List Char} (hslash : '/' ∉ piece) (hc : c.path.text ≠ "")
    (htext : (c.below (String.ofList piece)).text ≠ "") :
    (Candidate.at t (c.below (String.ofList piece))).trail = c.trail ++ (Path.part? piece).toList := by
  have hpieces : Text.splitOn '/' (String.ofList piece).toList = [piece] := by
    rw [String.toList_ofList, Text.splitOn_of_not_mem hslash]
  have hsingle : [piece].filterMap Path.part? = (Path.part? piece).toList := by
    cases hpart : Path.part? piece <;> simp [hpart]
  have hnever : PathPart.here ∉ (Path.part? piece).toList := by
    rw [← hsingle]
    exact Path.here_not_mem_filterMap_part? [piece]
  unfold below at htext ⊢
  cases hhere : c.isHere with
  | true =>
    -- The piece is a path of its own, and a single dot is the working directory again.
    rw [hhere, if_pos rfl] at htext
    have hown : (⟨String.ofList piece⟩ : Path).pieces = [piece] := hpieces
    have hparts : (⟨String.ofList piece⟩ : Path).parts = (Path.firstPart? piece).toList := by
      rw [Path.parts_of_pieces hown htext]
      exact List.append_nil _
    have hne : piece ≠ [] := by
      rintro rfl
      exact htext rfl
    have htrail : c.trail = [] := by
      rw [trail, hhere]
      rfl
    rw [if_pos rfl, htrail, List.nil_append]
    by_cases hdot : piece = ['.']
    · subst hdot
      rw [trail, if_pos (isHere_iff.2 hparts)]
      rfl
    · rw [Path.firstPart?, if_neg (by simpa using hne), if_neg hdot] at hparts
      apply trail_at hparts
      intro heq
      exact hnever (heq ▸ List.mem_cons_self)
  | false =>
    have hstart : Text.startsWith ['/'] (String.ofList piece).toList = false := by
      rw [← Bool.not_eq_true, Text.startsWith_singleton_iff, String.toList_ofList]
      rintro ⟨rest, rfl⟩
      exact hslash List.mem_cons_self
    have hparts := Path.parts_join hc hstart
    rw [hpieces, hsingle] at hparts
    rw [if_neg Bool.false_ne_true, trail_of_not_here hhere]
    apply trail_at hparts
    intro heq
    cases hown : c.path.parts with
    | nil =>
      rw [hown, List.nil_append] at heq
      exact hnever (heq ▸ List.mem_cons_self)
    | cons part parts =>
      rw [hown, List.cons_append, List.cons.injEq, List.append_eq_nil_iff] at heq
      rw [← Bool.not_eq_true, isHere_iff, hown, heq.1, heq.2.1] at hhere
      exact hhere rfl

/-- Components without special characters are entered one after the other. -/
theorem search_plain {texts : List String} (htexts : texts ≠ []) : ∀ (pieces : List (List Char)) {n : Nat}
    {c : Candidate} {patterns : List Pattern} {r : Path},
    (∀ piece ∈ pieces, '/' ∉ piece ∧ Plain piece) → c.path.text ≠ "" →
    ReadFrom (pieces.map String.ofList ++ texts) patterns → r ∈ search t onlyDirectories n c patterns →
    ∃ n' c' patterns', c'.path.text ≠ "" ∧ c'.trail = c.trail ++ pieces.filterMap Path.part? ∧
      ReadFrom texts patterns' ∧ r ∈ search t onlyDirectories n' c' patterns'
  | [], n, c, patterns, r, _, hc, hread, hr =>
    ⟨n, c, patterns, hc, (List.append_nil c.trail).symm, hread, hr⟩
  | piece :: pieces, n, c, patterns, r, hplain, hc, hread, hr => by
    obtain ⟨hslash, hpiece⟩ := hplain piece List.mem_cons_self
    cases hread with
    | @cons _ pattern _ patterns hfirst hothers =>
      have hliteral : pattern.literal? = some (String.ofList piece) :=
        Pattern.literal?_of_plain (by rwa [String.toList_ofList]) hfirst
      cases n with
      | zero => cases hr
      | succ n =>
        obtain ⟨htext, henter⟩ := search_of_literal hliteral hc hr
        have hne : patterns ≠ [] := by
          rintro rfl
          have hlength := hothers.length_eq
          simp [htexts] at hlength
        rw [if_neg (by simpa using hne)] at henter
        obtain ⟨n', c', patterns', hc', htrail, hread', hr'⟩ := search_plain htexts pieces
          (fun p hp => hplain p (List.mem_cons_of_mem piece hp)) htext hothers henter
        refine ⟨n', c', patterns', hc', ?_, hread', hr'⟩
        rw [htrail, Candidate.trail_below_piece hslash hc htext, List.append_assoc]
        congr 1
        cases hpart : Path.part? piece <;> simp [hpart]

/-! ## Whole patterns -/

/-- The components of a text are those of its pieces; an empty piece at the end is none. -/
theorem componentTexts_of_splitOn {cs : List Char} {pieces : List (List Char)} {s : String}
    (h : Text.splitOn '/' cs = pieces ++ Text.splitOn '/' s.toList) :
    componentTexts cs = pieces.map String.ofList ++ componentTexts s.toList := by
  have hne := Text.splitOn_ne_nil '/' s.toList
  unfold componentTexts
  simp only
  rw [h, List.getLast?_append_of_ne_nil _ hne]
  split
  · rw [List.dropLast_append_of_ne_nil hne, List.map_append]
  · rw [List.map_append]

theorem componentTexts_ne_nil {s : String} (hwild : Pattern.isWild s = true) :
    componentTexts s.toList ≠ [] := by
  intro hnil
  have hempty : Text.splitOn '/' s.toList = [[]] := by
    unfold componentTexts at hnil
    simp only [List.map_eq_nil_iff] at hnil
    split at hnil
    · next hlast =>
      rw [← List.dropLast_append_getLast? _ (beq_iff_eq.1 hlast), hnil, List.nil_append]
    · exact absurd hnil (Text.splitOn_ne_nil '/' s.toList)
  have hs : s.toList = [] := by
    rw [← Text.join_splitOn '/' s.toList, hempty]
    rfl
  rw [Pattern.isWild, hs] at hwild
  cases hwild

/-- A pattern below a directory that has no special characters itself, with components that are names;
those with special characters do not begin with a dot. -/
structure PatternBelow (base : Path) (s : String) : Prop where
  plain : Plain base.text.toList
  names : ∀ text ∈ componentTexts s.toList,
    Path.IsName text ∧ (text.toList.head? = some '.' → Plain text.toList)

theorem standsForNames_of_readFrom {texts : List String} {patterns : List Pattern}
    (hread : ReadFrom texts patterns)
    (htexts : ∀ text ∈ texts, Path.IsName text ∧ (text.toList.head? = some '.' → Plain text.toList)) :
    ∀ pattern ∈ patterns, pattern.StandsForNames := by
  induction hread with
  | nil => exact fun _ h => absurd h List.not_mem_nil
  | @cons text pattern texts patterns hfirst _ ih =>
    intro p hp
    rcases List.mem_cons.1 hp with rfl | hp
    · obtain ⟨hname, hdot⟩ := htexts text List.mem_cons_self
      refine ⟨fun hliteral => ?_, fun hwild hhead => ?_⟩
      · rw [Pattern.eq_of_literal? hfirst hliteral]
        exact hname
      · have hplain := hdot (Pattern.head?_of_ofString hfirst hhead)
        rw [Pattern.literal?_of_plain hplain hfirst] at hwild
        cases hwild
    · exact ih (fun text' h => htexts text' (List.mem_cons_of_mem text h)) p hp

theorem expand_eq_ok {p : Path} {paths : List Path} (h : expand t p = .ok paths) :
    ∃ n onlyDirectories patterns,
      ReadFrom (componentTexts (if p.isAbsolute then p.text.toList.drop 1 else p.text.toList)) patterns ∧
      paths = search t onlyDirectories n
        (Candidate.at t (if p.isAbsolute then ⟨"/"⟩ else ⟨"."⟩)) patterns := by
  obtain ⟨-, -, h⟩ := Error.bind_eq_ok.1 h
  obtain ⟨patterns, hread, h⟩ := Error.bind_eq_ok.1 h
  exact ⟨_, _, patterns, readFrom_of_mapM hread, (Except.ok.inj h).symm⟩

/-- What is found by a pattern whose first components are entered one after the other, and whose other
ones stand for names. -/
theorem goesOn_of_search (ht : t.Proper) {texts : List String} {pieces : List (List Char)} {n : Nat}
    {patterns : List Pattern} {r : Path} (htexts : texts ≠ [])
    (hnames : ∀ text ∈ texts, Path.IsName text ∧ (text.toList.head? = some '.' → Plain text.toList))
    (hpieces : ∀ piece ∈ pieces, '/' ∉ piece ∧ Plain piece) (hc : c.path.text ≠ "")
    (hread : ReadFrom (pieces.map String.ofList ++ texts) patterns)
    (hr : r ∈ search t onlyDirectories n c patterns) :
    r.GoesOn (c.trail ++ pieces.filterMap Path.part?) := by
  obtain ⟨n', c', patterns', hc', htrail, hread', hr'⟩ := search_plain htexts pieces hpieces hc hread hr
  rw [← htrail]
  exact (search_visit_goesOn ht n').1 (standsForNames_of_readFrom hread' hnames) hc' hr'

theorem plain_of_mem_splitOn {cs piece : List Char} (h : Plain cs) (hpiece : piece ∈ Text.splitOn '/' cs) :
    '/' ∉ piece ∧ Plain piece := by
  refine ⟨Text.not_mem_of_mem_splitOn hpiece, fun c hc => h c ?_⟩
  have hinfix := Text.infix_join_of_mem ['/'] hpiece
  rw [Text.join_splitOn] at hinfix
  exact hinfix.subset hc

/-- A pattern with components that are names does not begin with a slash. -/
theorem PatternBelow.not_startsWith {base : Path} (h : PatternBelow base s) :
    Text.startsWith ['/'] s.toList = false := by
  rw [← Bool.not_eq_true, Text.startsWith_singleton_iff]
  rintro ⟨rest, hrest⟩
  have hsplit : Text.splitOn '/' s.toList = [[]] ++ Text.splitOn '/' (String.ofList rest).toList := by
    rw [hrest, String.toList_ofList, Text.splitOn, if_pos rfl]
    rfl
  have hempty : "" ∈ componentTexts s.toList := by
    rw [componentTexts_of_splitOn hsplit]
    exact List.mem_cons_self
  exact (h.names "" hempty).1.text_ne_empty rfl

/-- What a pattern below a directory finds goes on by names from the directory, without the dot at its
beginning. -/
theorem goesOn_of_expand (ht : t.Proper) {base : Path} (hwild : Pattern.isWild s = true)
    (hbelow : PatternBelow base s) {paths : List Path} (hexpand : expand t (base.join s) = .ok paths)
    {r : Path} (hr : r ∈ paths) : r.GoesOn base.trail := by
  obtain ⟨n, onlyDirectories, patterns, hread, rfl⟩ := expand_eq_ok hexpand
  have htexts := componentTexts_ne_nil hwild
  have hstart := hbelow.not_startsWith
  by_cases hempty : base.text = ""
  · -- Nothing stands in front of the pattern.
    have hjoin : base.join s = ⟨s⟩ := by
      rw [Path.join, hempty]
      simp
    have htrail : base.trail = [] := by
      rw [Path.trail, show base = ⟨""⟩ from by cases base; exact congrArg Path.mk hempty, Path.parts_empty]
    have hrelative : (base.join s).isAbsolute = false := by rw [hjoin]; exact hstart
    rw [hrelative, if_neg Bool.false_ne_true, hjoin] at hread
    rw [hrelative, if_neg Bool.false_ne_true] at hr
    rw [htrail, ← Candidate.trail_here t]
    exact (search_visit_goesOn ht n).1 (standsForNames_of_readFrom hread hbelow.names)
      (show "." ≠ "" by decide) hr
  · obtain ⟨first, others, hpieces, hbase⟩ := Path.pieces_join hempty hstart
    have hplain : ∀ piece ∈ first :: others, '/' ∉ piece ∧ Plain piece := by
      intro piece hpiece
      refine plain_of_mem_splitOn hbelow.plain (?_ : piece ∈ base.pieces)
      rcases hbase with hbase | hbase
      · rw [hbase]
        exact hpiece
      · rw [hbase]
        exact List.mem_append_left _ hpiece
    cases habsolute : (base.join s).isAbsolute with
    | true =>
      -- The search starts at the top, and the empty piece before the first slash is not looked up.
      obtain ⟨rest, hrest⟩ := Text.startsWith_singleton_iff.1 habsolute
      rw [Path.pieces, hrest, Text.splitOn, if_pos rfl, List.cons.injEq] at hpieces
      obtain ⟨rfl, hpieces⟩ := hpieces
      have htrail : (Candidate.at t ⟨"/"⟩).trail = [.root] := Candidate.trail_at (by decide) (by decide)
      rw [habsolute, if_pos rfl, hrest, List.drop_one, List.tail_cons,
        componentTexts_of_splitOn hpieces] at hread
      rw [habsolute, if_pos rfl] at hr
      rw [Path.trail_of_absolute hempty hbase, ← List.singleton_append, ← htrail]
      exact goesOn_of_search ht htexts hbelow.names
        (fun piece hpiece => hplain piece (List.mem_cons_of_mem _ hpiece)) (show "/" ≠ "" by decide)
        hread hr
    | false =>
      have hne : first ≠ [] := by
        obtain ⟨c, piece, others', hrelative⟩ :=
          Path.pieces_of_relative habsolute (Path.text_join_ne_empty hempty s)
        rw [hpieces] at hrelative
        rw [(List.cons.inj hrelative).1]
        exact List.cons_ne_nil c piece
      have hsplit : Text.splitOn '/' (base.join s).text.toList =
          (first :: others) ++ Text.splitOn '/' s.toList := hpieces
      rw [habsolute, if_neg Bool.false_ne_true, componentTexts_of_splitOn hsplit] at hread
      rw [habsolute, if_neg Bool.false_ne_true] at hr
      rw [Path.trail_of_relative hempty hne hbase, ← List.nil_append ((first :: others).filterMap _),
        ← Candidate.trail_here t]
      exact goesOn_of_search ht htexts hbelow.names hplain (show "." ≠ "" by decide) hread hr

end Glob

end DocBlock
