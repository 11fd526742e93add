import Mathlib.Order.Compare
import DocBlock.Path

/-! # The order of paths

Paths are compared by their components, and equal only when these are the same
(`Path.compare_eq_iff`). A path that is put into a sorted list leaves it sorted
(`insertSorted_pairwise`), and it is in the list then, or one with the same components is
(`exists_mem_insertSorted`). So in a sorted list different paths have different components. -/

namespace DocBlock.Path

variable {p q : Path} {qs : List Path}

/-! ## Comparing -/

/-- The text of a component that is a name. -/
def nameText : PathPart → String
  | .name text => text
  | _ => ""

theorem compareParts_eq (a b : PathPart) :
    compareParts a b = compareLex (compareOn compareParts.rank) (compareOn nameText) a b := by
  cases a <;> cases b <;> simp [compareParts, compareLex, compareOn, compareParts.rank, nameText] <;> rfl

instance : Std.TransCmp compareParts := by
  have heq : compareParts = compareLex (compareOn compareParts.rank) (compareOn nameText) :=
    funext fun a => funext fun b => compareParts_eq a b
  rw [heq]
  infer_instance

theorem compareParts_eq_eq {a b : PathPart} (h : compareParts a b = .eq) : a = b := by
  cases a <;> cases b <;> simp_all [compareParts, compareParts.rank]

instance : Std.LawfulEqCmp compareParts where
  eq_of_compare := compareParts_eq_eq

theorem compareLists_eq (as bs : List PathPart) :
    compareLists as bs = List.compareLex compareParts as bs := by
  induction as generalizing bs with
  | nil => cases bs <;> rfl
  | cons a as ih =>
    cases bs with
    | nil => rfl
    | cons b bs => rw [compareLists, List.compareLex_cons_cons, ih]

theorem compare_eq_iff : p.compare q = .eq ↔ p.parts = q.parts := by
  rw [compare, compareLists_eq]
  exact Std.LawfulEqCmp.compare_eq_iff_eq

theorem compare_lt_of_gt (h : p.compare q = .gt) : q.compare p = .lt := by
  rw [compare, compareLists_eq] at h ⊢
  exact Std.OrientedCmp.gt_iff_lt.1 h

theorem compare_lt_trans {r : Path} (h : p.compare q = .lt) (h' : q.compare r = .lt) :
    p.compare r = .lt := by
  rw [compare, compareLists_eq] at h h' ⊢
  exact Std.TransCmp.lt_trans h h'

/-! ## Sorted lists -/

theorem mem_insertSorted {r : Path} (h : r ∈ p.insertSorted qs) : r = p ∨ r ∈ qs := by
  induction qs with
  | nil => exact .inl (List.mem_singleton.1 h)
  | cons q qs ih =>
    unfold insertSorted at h
    split at h
    · exact List.mem_cons.1 h
    · exact .inr h
    · rcases List.mem_cons.1 h with rfl | h
      · exact .inr List.mem_cons_self
      · exact (ih h).imp_right (List.mem_cons_of_mem q)

theorem subset_insertSorted (p : Path) (qs : List Path) : qs ⊆ p.insertSorted qs := by
  induction qs with
  | nil => exact List.nil_subset _
  | cons q qs ih =>
    unfold insertSorted
    split
    · exact List.subset_cons_self p _
    · exact fun _ h => h
    · exact List.cons_subset_cons q ih

/-- A path is in the list afterwards, or one with the same components is. -/
theorem exists_mem_insertSorted (p : Path) (qs : List Path) :
    ∃ q ∈ p.insertSorted qs, q.parts = p.parts := by
  induction qs with
  | nil => exact ⟨p, List.mem_cons_self, rfl⟩
  | cons q qs ih =>
    unfold insertSorted
    split
    · exact ⟨p, List.mem_cons_self, rfl⟩
    · next heq => exact ⟨q, List.mem_cons_self, (compare_eq_iff.1 heq).symm⟩
    · obtain ⟨r, hr, hparts⟩ := ih
      exact ⟨r, List.mem_cons_of_mem q hr, hparts⟩

theorem insertSorted_pairwise (h : qs.Pairwise fun a b => a.compare b = .lt) :
    (p.insertSorted qs).Pairwise fun a b => a.compare b = .lt := by
  induction qs with
  | nil => exact List.pairwise_singleton _ _
  | cons q qs ih =>
    obtain ⟨hq, hqs⟩ := List.pairwise_cons.1 h
    unfold insertSorted
    split
    · next hlt =>
      refine List.pairwise_cons.2 ⟨fun r hr => ?_, h⟩
      rcases List.mem_cons.1 hr with rfl | hr
      · exact hlt
      · exact compare_lt_trans hlt (hq r hr)
    · exact h
    · next hgt =>
      refine List.pairwise_cons.2 ⟨fun r hr => ?_, ih hqs⟩
      rcases mem_insertSorted hr with rfl | hr
      · exact compare_lt_of_gt hgt
      · exact hq r hr

/-! ## Lists that are put in one by one -/

/-- Puts several paths into a sorted list. -/
def insertAll (paths qs : List Path) : List Path :=
  paths.foldl (fun qs p => p.insertSorted qs) qs

theorem mem_insertAll {paths : List Path} (h : p ∈ insertAll paths qs) : p ∈ paths ∨ p ∈ qs := by
  induction paths generalizing qs with
  | nil => exact .inr h
  | cons q paths ih =>
    rcases ih h with h | h
    · exact .inl (List.mem_cons_of_mem q h)
    · refine (mem_insertSorted h).imp_left fun heq => ?_
      rw [heq]
      exact List.mem_cons_self

theorem subset_insertAll (paths qs : List Path) : qs ⊆ insertAll paths qs := by
  induction paths generalizing qs with
  | nil => exact fun _ h => h
  | cons p paths ih => exact List.Subset.trans (subset_insertSorted p qs) (ih _)

theorem exists_mem_insertAll {paths : List Path} (h : p ∈ paths) (qs : List Path) :
    ∃ q ∈ insertAll paths qs, q.parts = p.parts := by
  induction paths generalizing qs with
  | nil => cases h
  | cons first paths ih =>
    rcases List.mem_cons.1 h with rfl | h
    · obtain ⟨q, hq, hparts⟩ := exists_mem_insertSorted p qs
      exact ⟨q, subset_insertAll paths _ hq, hparts⟩
    · exact ih h _

theorem insertAll_pairwise (paths : List Path) (h : qs.Pairwise fun a b => a.compare b = .lt) :
    (insertAll paths qs).Pairwise fun a b => a.compare b = .lt := by
  induction paths generalizing qs with
  | nil => exact h
  | cons p paths ih => exact ih (insertSorted_pairwise h)

/-- Different paths of a sorted list have different components. -/
theorem parts_ne_of_compare_lt (h : p.compare q = .lt) : p.parts ≠ q.parts := by
  intro heq
  rw [compare_eq_iff.2 heq] at h
  cases h

end DocBlock.Path
