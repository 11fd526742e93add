import DocBlock.Files.Scan
import DocBlock.Proofs.Files.Locating
import DocBlock.Proofs.Path.Order

/-! # What a search lists

A search lists source files that it meets at or below its roots and that no ignore covers (`Meets`). Of
the paths with the same components it lists one (`exists_mem_scan`, `scan_pairwise`). The roots depend on
which includes there are and not on their order (`mem_scanRoots`), and what is met below a root goes on
from there by names (`walk_goesOn`). -/

namespace DocBlock.Files

open Glob (Pattern)

variable {t : FileTree} {base root p : Path} {includes ignores : List String} {ignored : Ignores}
  {ignoreTests : Bool} {roots paths : List Path} {result : ScanResult}

/-! ## Ignores -/

/-- What a search leaves out. -/
def scanIgnores (base : Path) (ignores : List String) (ignoreTests : Bool) : Ignores :=
  if ignoreTests then (Ignores.ofStrings base ignores).1.addTestFiles
  else (Ignores.ofStrings base ignores).1

theorem mem_paths_ofStrings {s : String} (hs : s ∈ ignores) (hpath : Pattern.isWild s = false) :
    base.join s ∈ (Ignores.ofStrings base ignores).1.paths := by
  induction ignores with
  | nil => cases hs
  | cons first rest ih =>
    rcases List.mem_cons.1 hs with rfl | hs
    · simp [Ignores.ofStrings, hpath]
    · have hrest := ih hs
      unfold Ignores.ofStrings
      cases hfirst : Pattern.isWild first with
      | true =>
        cases hpattern : Pattern.ofString first <;> simpa [hfirst, hpattern] using hrest
      | false => simpa [hfirst] using .inr hrest

/-- What stands at or below an ignore without wild characters is covered. -/
theorem covers_scanIgnores {s : String} (ignoreTests : Bool) (hs : s ∈ ignores) (hpath : Pattern.isWild s = false)
    (hbelow : p.isBelow (base.join s) = true) :
    (scanIgnores base ignores ignoreTests).covers p = true := by
  have hmem : base.join s ∈ (scanIgnores base ignores ignoreTests).paths := by
    unfold scanIgnores
    split <;> exact mem_paths_ofStrings hs hpath
  rw [Ignores.covers, List.any_eq_true.2 ⟨_, hmem, hbelow⟩, Bool.true_or]

/-! ## Roots -/

theorem mem_scanRoots :
    root ∈ (scanRoots t base includes).1 ↔
      includes = [] ∧ root = base ∨ ∃ s ∈ includes, root ∈ (includeRoots t base s).1 := by
  unfold scanRoots
  cases includes with
  | nil => simp
  | cons s rest => simp

/-! ## Walking -/

theorem walkBelow_goesOn (ht : t.Proper) (n : Nat) :
    ∀ {root p : Path}, root.text ≠ "" → p ∈ walkBelow t n root → p.GoesOn root.parts := by
  induction n with
  | zero =>
    intro root p _ hp
    rw [List.mem_singleton.1 hp]
    exact .refl root
  | succ n ih =>
    intro root p htext hp
    unfold walkBelow at hp
    split at hp
    · rcases List.mem_cons.1 hp with rfl | hp
      · exact .refl p
      · obtain ⟨name, hname, hp⟩ := List.mem_flatMap.1 hp
        exact (Path.GoesOn.join (ht.isName_of_mem_list hname) htext).trans
          (ih (Path.text_join_ne_empty htext name) hp)
    · rw [List.mem_singleton.1 hp]
      exact .refl root

/-- What is met at and below a root goes on from there by names. -/
theorem walk_goesOn (ht : t.Proper) (hwalk : walk t root = .ok paths) (hp : p ∈ paths) :
    p.GoesOn root.parts := by
  obtain ⟨entry, hstatus, hwalk⟩ := Error.bind_eq_ok.1 hwalk
  have htext := FileTree.text_ne_empty_of_linkStatus hstatus
  split at hwalk
  · obtain ⟨target, -, hwalk⟩ := Error.bind_eq_ok.1 hwalk
    split at hwalk
    · obtain rfl := Except.ok.inj hwalk
      rcases List.mem_cons.1 hp with rfl | hp
      · exact .refl p
      · obtain ⟨name, hname, hp⟩ := List.mem_flatMap.1 hp
        exact (Path.GoesOn.join (ht.isName_of_mem_list hname) htext).trans
          (walkBelow_goesOn ht _ (Path.text_join_ne_empty htext name) hp)
    · obtain rfl := Except.ok.inj hwalk
      rw [List.mem_singleton.1 hp]
      exact .refl root
  · obtain rfl := Except.ok.inj hwalk
    exact walkBelow_goesOn ht _ htext hp

/-! ## The search -/

/-- A path is met at or below one of the roots and kept: no ignore covers it, and it is a source file. -/
def Meets (t : FileTree) (ignored : Ignores) (roots : List Path) (p : Path) : Prop :=
  ∃ root ∈ roots, ∃ paths, walk t root = .ok paths ∧
    p ∈ paths.filter fun p => !ignored.covers p && t.isFile p && isSourceName p

theorem Meets.exists_root (h : Meets t ignored roots p) :
    ∃ root ∈ roots, ∃ paths, walk t root = .ok paths ∧ p ∈ paths := by
  obtain ⟨root, hroot, paths, hwalk, hp⟩ := h
  exact ⟨root, hroot, paths, hwalk, (List.mem_filter.1 hp).1⟩

theorem Meets.not_covers (h : Meets t ignored roots p) : ignored.covers p = false := by
  obtain ⟨root, -, paths, -, hp⟩ := h
  have hkept := (List.mem_filter.1 hp).2
  simp only [Bool.and_eq_true, Bool.not_eq_true'] at hkept
  exact hkept.1.1

theorem Meets.isFile (h : Meets t ignored roots p) : t.isFile p = true := by
  obtain ⟨root, -, paths, -, hp⟩ := h
  have hkept := (List.mem_filter.1 hp).2
  simp only [Bool.and_eq_true] at hkept
  exact hkept.1.2

/-- What is met depends on which roots there are. -/
theorem Meets.subset {roots' : List Path} (h : Meets t ignored roots p) (hroots : roots ⊆ roots') :
    Meets t ignored roots' p := by
  obtain ⟨root, hroot, hmet⟩ := h
  exact ⟨root, hroots hroot, hmet⟩

/-- Adding a root puts what is met there into the list. -/
theorem files_addRoot (t : FileTree) (ignored : Ignores) (result : ScanResult) (root : Path) :
    ∃ paths, (result.addRoot t ignored root).files = Path.insertAll paths result.files ∧
      ∀ p, p ∈ paths ↔ Meets t ignored [root] p := by
  unfold ScanResult.addRoot
  cases hwalk : walk t root with
  | error cause =>
    refine ⟨[], rfl, fun p => ⟨fun hp => absurd hp List.not_mem_nil, ?_⟩⟩
    rintro ⟨root', hroot, paths, hok, -⟩
    rw [List.mem_singleton.1 hroot, hwalk] at hok
    cases hok
  | ok paths =>
    refine ⟨_, rfl, fun p => ⟨fun hp => ⟨root, List.mem_singleton_self root, paths, hwalk, hp⟩, ?_⟩⟩
    rintro ⟨root', hroot, paths', hok, hp⟩
    rw [List.mem_singleton.1 hroot, hwalk] at hok
    obtain rfl := Except.ok.inj hok
    exact hp

theorem Meets.cons_iff {roots : List Path} :
    Meets t ignored (root :: roots) p ↔ Meets t ignored [root] p ∨ Meets t ignored roots p := by
  simp [Meets]

theorem mem_foldl_addRoot (h : p ∈ (roots.foldl (ScanResult.addRoot t ignored) result).files) :
    Meets t ignored roots p ∨ p ∈ result.files := by
  induction roots generalizing result with
  | nil => exact .inr h
  | cons root roots ih =>
    obtain ⟨paths, hfiles, hpaths⟩ := files_addRoot t ignored result root
    rcases ih h with h | h
    · exact .inl (Meets.cons_iff.2 (.inr h))
    · rw [hfiles] at h
      refine (Path.mem_insertAll h).imp_left fun hp => ?_
      exact Meets.cons_iff.2 (.inl ((hpaths p).1 hp))

theorem subset_foldl_addRoot (roots : List Path) (result : ScanResult) :
    result.files ⊆ (roots.foldl (ScanResult.addRoot t ignored) result).files := by
  induction roots generalizing result with
  | nil => exact fun _ h => h
  | cons root roots ih =>
    obtain ⟨paths, hfiles, -⟩ := files_addRoot t ignored result root
    refine List.Subset.trans ?_ (ih (result.addRoot t ignored root))
    rw [hfiles]
    exact Path.subset_insertAll paths result.files

/-- What is met at some root stays in the list when further roots are added. -/
theorem exists_mem_foldl_addRoot (h : Meets t ignored roots p) (result : ScanResult) :
    ∃ q ∈ (roots.foldl (ScanResult.addRoot t ignored) result).files, q.parts = p.parts := by
  induction roots generalizing result with
  | nil =>
    obtain ⟨root, hroot, -⟩ := h
    cases hroot
  | cons root roots ih =>
    obtain ⟨paths, hfiles, hpaths⟩ := files_addRoot t ignored result root
    rcases Meets.cons_iff.1 h with h | h
    · obtain ⟨q, hq, hparts⟩ := Path.exists_mem_insertAll ((hpaths p).2 h) result.files
      rw [← hfiles] at hq
      exact ⟨q, subset_foldl_addRoot roots _ hq, hparts⟩
    · exact ih h _

theorem foldl_addRoot_pairwise (roots : List Path)
    (h : result.files.Pairwise fun a b => a.compare b = .lt) :
    (roots.foldl (ScanResult.addRoot t ignored) result).files.Pairwise
      fun a b => a.compare b = .lt := by
  induction roots generalizing result with
  | nil => exact h
  | cons root roots ih =>
    obtain ⟨paths, hfiles, -⟩ := files_addRoot t ignored result root
    refine ih ?_
    rw [hfiles]
    exact Path.insertAll_pairwise paths h

/-- Every listed path is met and kept. -/
theorem meets_of_mem_scan (h : p ∈ (scan t base includes ignores ignoreTests).files) :
    Meets t (scanIgnores base ignores ignoreTests) (scanRoots t base includes).1 p :=
  (mem_foldl_addRoot h).resolve_right List.not_mem_nil

/-- Every path that is met and kept is listed, or one with the same components is. -/
theorem exists_mem_scan
    (h : Meets t (scanIgnores base ignores ignoreTests) (scanRoots t base includes).1 p) :
    ∃ q ∈ (scan t base includes ignores ignoreTests).files, q.parts = p.parts :=
  exists_mem_foldl_addRoot h _

/-- Listed paths have different components. -/
theorem scan_pairwise (t : FileTree) (base : Path) (includes ignores : List String)
    (ignoreTests : Bool) :
    (scan t base includes ignores ignoreTests).files.Pairwise fun p q => p.parts ≠ q.parts := by
  have hsorted : (scan t base includes ignores ignoreTests).files.Pairwise
      fun p q => p.compare q = .lt := foldl_addRoot_pairwise _ .nil
  exact hsorted.imp Path.parts_ne_of_compare_lt

end DocBlock.Files
