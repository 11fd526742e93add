import Mathlib.Data.List.DropRight
import Mathlib.Logic.Relation
import DocBlock.Proofs.Path.Parts

/-! # Paths above a path

The parent of a path has its components without the last one, and a path without components, or with
the top as its only one, has no parent (`Path.parts_of_parent?`, `Path.parent?_eq_none_iff`). So going up
from a path comes to an end, and from an absolute path it goes through one path for each beginning of its
components (`Path.exists_climbs_iff`). -/

namespace DocBlock.Path

variable {p q r : Path} {first piece : List Char} {others pieces front : List (List Char)}

/-! ## Pieces that mean nothing -/

/-- Whether a piece after the first one stands for nothing. -/
def isIdle (piece : List Char) : Bool :=
  (part? piece).isNone

theorem significant_cons (first : List Char) (others : List (List Char)) :
    significant (first :: others) = first :: others.rdropWhile isIdle := rfl

/-- Pieces at the end that stand for nothing are no components. -/
theorem filterMap_rdropWhile (pieces : List (List Char)) :
    (pieces.rdropWhile isIdle).filterMap part? = pieces.filterMap part? := by
  have hidle : (pieces.rtakeWhile isIdle).filterMap part? = [] := by
    rw [List.filterMap_eq_nil_iff]
    intro piece hpiece
    have hnone : isIdle piece = true := List.mem_rtakeWhile_imp hpiece
    exact Option.isNone_iff_eq_none.1 hnone
  conv_rhs => rw [← List.rdropWhile_append_rtakeWhile (p := isIdle) (l := pieces)]
  rw [List.filterMap_append, hidle, List.append_nil]

/-- The last piece that is left stands for something. -/
theorem exists_part?_of_rdropWhile (h : pieces.rdropWhile isIdle = front ++ [piece]) :
    ∃ part, part? piece = some part := by
  have hlast : isIdle piece ≠ true := by
    have hne : pieces.rdropWhile isIdle ≠ [] := by
      rw [h]
      exact List.append_ne_nil_of_right_ne_nil front (List.cons_ne_nil piece [])
    have hnot := List.rdropWhile_last_not isIdle pieces hne
    simpa only [h, List.getLast_append_singleton] using hnot
  exact Option.ne_none_iff_exists'.1 fun hnone => hlast (Option.isNone_iff_eq_none.2 hnone)

/-- The first piece of a path that is not the top is one component. -/
theorem exists_firstPart? (h : first ≠ []) : ∃ part, firstPart? first = some part ∧ part ≠ .root := by
  rw [firstPart?, if_neg (by simpa using h)]
  by_cases hhere : first = ['.']
  · exact ⟨.here, if_pos hhere, fun hroot => by cases hroot⟩
  · have hnot : ¬ (first.isEmpty || first = ['.']) = true := by simp [h, hhere]
    rw [if_neg hhere, part?, if_neg hnot]
    split
    · exact ⟨.up, rfl, fun hroot => by cases hroot⟩
    · exact ⟨.name _, rfl, fun hroot => by cases hroot⟩

/-! ## Parents -/

/-- The path that some pieces make up, when these are not a single empty one. -/
theorem parts_ofPieces (hslash : ∀ piece ∈ first :: others, '/' ∉ piece)
    (hne : first :: others ≠ [[]]) :
    (⟨String.ofList (Text.join ['/'] (first :: others))⟩ : Path).parts =
      (firstPart? first).toList ++ others.filterMap part? := by
  have hpieces : (⟨String.ofList (Text.join ['/'] (first :: others))⟩ : Path).pieces =
      first :: others := by
    rw [pieces, String.toList_ofList, Text.splitOn_join hslash (List.cons_ne_nil first others)]
  refine parts_of_pieces hpieces fun htext => hne ?_
  rw [← hpieces, pieces, htext]
  rfl

theorem parent?_of_first (hpieces : p.pieces = first :: others)
    (hnil : others.rdropWhile isIdle = []) :
    p.parent? = if first = [] then none else some ⟨""⟩ := by
  unfold parent?
  simp only [hpieces, significant_cons, hnil]
  by_cases hfirst : first = []
  · rw [if_pos (by rw [hfirst]), if_pos hfirst]
  · rw [if_neg (by simpa using hfirst), if_neg hfirst]
    rfl

/-- A later piece that means something is left out when it is the last one. -/
theorem parent?_of_concat (hpieces : p.pieces = first :: others)
    (hconcat : others.rdropWhile isIdle = front ++ [piece]) :
    ∃ q, p.parent? = some q ∧ q.parts = (firstPart? first).toList ++ front.filterMap part? := by
  have hslash : ∀ piece ∈ first :: front.rdropWhile isIdle, '/' ∉ piece := by
    have hfront : front.rdropWhile isIdle ⊆ others := by
      have hprefix : front <+: others := (List.prefix_append front [piece]).trans
        (hconcat ▸ List.rdropWhile_prefix isIdle others)
      exact fun l hl => hprefix.subset ((List.rdropWhile_prefix isIdle front).subset hl)
    intro l hl
    have hpiece : l ∈ p.pieces := by
      rw [hpieces]
      exact List.cons_subset_cons first hfront hl
    exact Text.not_mem_of_mem_splitOn hpiece
  have hdrop : (first :: (front ++ [piece])).dropLast = first :: front := by
    rw [← List.cons_append, List.dropLast_concat]
  unfold parent?
  simp only [hpieces, significant_cons, hconcat, hdrop]
  rw [if_neg (by simp)]
  split
  · rename_i htop
    obtain ⟨rfl, hidle⟩ := List.cons.inj htop
    refine ⟨⟨"/"⟩, rfl, ?_⟩
    rw [← filterMap_rdropWhile, hidle]
    decide
  · rename_i hrest
    refine ⟨_, rfl, ?_⟩
    rw [parts_ofPieces hslash hrest, filterMap_rdropWhile]

/-- What the parent of a path is, by its components. -/
theorem parent?_spec (p : Path) :
    (p.parent? = none ∧ (p.parts = [] ∨ p.parts = [.root])) ∨
      ∃ q, p.parent? = some q ∧ p.parts ≠ [] ∧ p.parts ≠ [.root] ∧ q.parts = p.parts.dropLast := by
  obtain ⟨first, others, hpieces⟩ := p.exists_pieces
  by_cases htext : p.text = ""
  · left
    obtain rfl : p = ⟨""⟩ := by rw [← htext]
    exact ⟨by decide, .inl parts_empty⟩
  have hparts : p.parts = (firstPart? first).toList ++ (others.rdropWhile isIdle).filterMap part? := by
    rw [parts_of_pieces hpieces htext, filterMap_rdropWhile]
  rcases List.eq_nil_or_concat (others.rdropWhile isIdle) with hnil | ⟨front, piece, hconcat⟩
  · -- The first piece is the only one that means something.
    have hparent := parent?_of_first hpieces hnil
    rw [hnil, List.filterMap_nil, List.append_nil] at hparts
    by_cases hfirst : first = []
    · left
      rw [hfirst] at hparts
      exact ⟨by rw [hparent, if_pos hfirst], .inr hparts⟩
    · right
      obtain ⟨part, hpart, hroot⟩ := exists_firstPart? hfirst
      rw [hpart] at hparts
      refine ⟨⟨""⟩, by rw [hparent, if_neg hfirst], ?_, ?_, ?_⟩
      · simp [hparts]
      · simpa [hparts] using hroot
      · rw [hparts]
        exact parts_empty
  · rw [List.concat_eq_append] at hconcat
    obtain ⟨part, hpart⟩ := exists_part?_of_rdropWhile hconcat
    obtain ⟨q, hparent, hq⟩ := parent?_of_concat hpieces hconcat
    have hstep : p.parts = q.parts ++ [part] := by
      rw [hparts, hq, hconcat, List.filterMap_append, List.append_assoc]
      simp [hpart]
    -- The component that is left out is not the top, which stands first only.
    have hroot : part ≠ .root := by
      rcases up_or_name_of_part? hpart with rfl | rfl <;> exact fun hroot => by cases hroot
    right
    refine ⟨q, hparent, ?_, ?_, ?_⟩
    · simp [hstep]
    · intro htop
      rw [hstep, List.append_eq_singleton_iff] at htop
      rcases htop with ⟨-, hlast⟩ | ⟨-, hlast⟩
      · exact hroot (List.cons.inj hlast).1
      · cases hlast
    · rw [hstep, List.dropLast_concat]

theorem parts_of_parent? (h : p.parent? = some q) :
    p.parts ≠ [] ∧ p.parts ≠ [.root] ∧ q.parts = p.parts.dropLast := by
  rcases p.parent?_spec with ⟨hnone, -⟩ | ⟨q', hparent, hspec⟩
  · rw [hnone] at h
    cases h
  · rw [hparent] at h
    obtain rfl := Option.some.inj h
    exact hspec

theorem parent?_eq_none_iff : p.parent? = none ↔ p.parts = [] ∨ p.parts = [.root] := by
  rcases p.parent?_spec with ⟨hnone, hparts⟩ | ⟨q, hparent, hempty, htop, -⟩
  · exact ⟨fun _ => hparts, fun _ => hnone⟩
  · rw [hparent]
    exact ⟨fun h => by (cases h), fun h => absurd h (not_or.2 ⟨hempty, htop⟩)⟩

theorem length_parts_of_parent? (h : p.parent? = some q) : p.parts.length = q.parts.length + 1 := by
  obtain ⟨hempty, -, hq⟩ := parts_of_parent? h
  have hpos := List.length_pos_of_ne_nil hempty
  rw [hq, List.length_dropLast]
  omega

/-- There are not more components than pieces. -/
theorem length_parts_le (p : Path) : p.parts.length ≤ p.pieces.length := by
  obtain ⟨first, others, hpieces⟩ := p.exists_pieces
  by_cases htext : p.text = ""
  · obtain rfl : p = ⟨""⟩ := by rw [← htext]
    decide
  · have hfirst : (firstPart? first).toList.length ≤ 1 := by cases firstPart? first <;> simp
    have hothers := List.length_filterMap_le part? others
    rw [parts_of_pieces hpieces htext, hpieces, List.length_append, List.length_cons]
    omega

/-! ## Going up -/

/-- Whether a path is another one or one of the paths above it, each the parent of the one before. -/
def Climbs : Path → Path → Prop :=
  Relation.ReflTransGen fun p q => p.parent? = some q

theorem Climbs.length_le (h : p.Climbs q) : q.parts.length ≤ p.parts.length := by
  induction h with
  | refl => exact Nat.le_refl _
  | tail _ hparent ih =>
    have hlength := length_parts_of_parent? hparent
    omega

/-- Above a path are the path itself and what is above its parent. -/
theorem climbs_iff : p.Climbs q ↔ q = p ∨ ∃ r, p.parent? = some r ∧ r.Climbs q := by
  rw [Climbs, Relation.ReflTransGen.cases_head_iff, eq_comm]

theorem Climbs.antisymm (h : p.Climbs q) (h' : q.Climbs p) : q = p := by
  rcases climbs_iff.1 h with rfl | ⟨r, hparent, hr⟩
  · rfl
  · have hlength := length_parts_of_parent? hparent
    have hup := Climbs.length_le hr
    have hdown := Climbs.length_le h'
    omega

/-- Going up leads to a path with the given components from the path itself or from its parent. -/
theorem exists_climbs_step {parts : List PathPart} : (∃ q, p.Climbs q ∧ q.parts = parts) ↔
    parts = p.parts ∨ ∃ r, p.parent? = some r ∧ ∃ q, r.Climbs q ∧ q.parts = parts := by
  constructor
  · rintro ⟨q, hq, rfl⟩
    rcases climbs_iff.1 hq with rfl | ⟨r, hr, hup⟩
    · exact .inl rfl
    · exact .inr ⟨r, hr, q, hup, rfl⟩
  · rintro (rfl | ⟨r, hr, q, hup, rfl⟩)
    · exact ⟨p, climbs_iff.2 (.inl rfl), rfl⟩
    · exact ⟨q, climbs_iff.2 (.inr ⟨r, hr, hup⟩), rfl⟩

/-- From a path with a top, going up leads through one path for each beginning of its components. -/
theorem exists_climbs_iff {parts : List PathPart} (h : p.parts.head? = some .root) :
    (∃ q, p.Climbs q ∧ q.parts = parts) ↔ parts ≠ [] ∧ parts <+: p.parts := by
  obtain ⟨names, hnames⟩ := List.head?_eq_some_iff.1 h
  induction names using List.reverseRecOn generalizing p with
  | nil =>
    have hparent : p.parent? = none := parent?_eq_none_iff.2 (.inr hnames)
    rw [exists_climbs_step, hparent, hnames, ← List.nil_append [PathPart.root], List.prefix_concat_iff,
      List.prefix_nil]
    simp only [reduceCtorEq, false_and, exists_false, or_false]
    constructor
    · rintro rfl
      exact ⟨by simp, .inl rfl⟩
    · rintro ⟨hne, hparts | hparts⟩
      · exact hparts
      · exact absurd hparts hne
  | append_singleton names last ih =>
    rw [← List.cons_append] at hnames
    rcases p.parent?_spec with ⟨-, hparts⟩ | ⟨r, hparent, -, -, hr⟩
    · simp [hnames] at hparts
    · rw [hnames, List.dropLast_concat] at hr
      have hup := ih (by rw [hr]; rfl) hr
      rw [exists_climbs_step, hparent, hnames, List.prefix_concat_iff, ← hr]
      simp only [Option.some.injEq, exists_eq_left', hup]
      constructor
      · rintro (rfl | ⟨hne, hprefix⟩)
        · exact ⟨by simp, .inl rfl⟩
        · exact ⟨hne, .inr hprefix⟩
      · rintro ⟨hne, rfl | hprefix⟩
        · exact .inl rfl
        · exact .inr ⟨hne, hprefix⟩

/-- An absolute path has the top as its first component. -/
theorem head?_parts_of_isAbsolute (h : p.isAbsolute = true) : p.parts.head? = some .root := by
  obtain ⟨others, hpieces⟩ := pieces_of_isAbsolute h
  have htext : p.text ≠ "" := by
    rintro htext
    rw [isAbsolute, htext] at h
    cases h
  rw [parts_of_pieces hpieces htext]
  rfl

end DocBlock.Path
