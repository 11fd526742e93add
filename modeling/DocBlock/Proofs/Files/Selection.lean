import DocBlock.Proofs.Files.Scanning
import DocBlock.Proofs.Glob.Expanding

/-! # Which files a search selects

Includes that are paths keep a dot at the beginning of their directory, and those that are patterns drop
it, while ignores and listed paths are compared as they are written. So a file below an ignore is left out
when it is written like the ignore (`scan_leaves_out`), and a file is listed once when all includes write it
alike (`scan_lists_once`): in both cases unless patterns meet paths below a directory that begins with a
dot. Which files are listed depends neither on the order of the includes nor on how often they are there. -/

namespace DocBlock.Files

open Glob (Pattern PatternBelow expand goesOn_of_expand)

variable {t : FileTree} {base root p q : Path} {includes includes' ignores : List String} {s : String}
  {ignoreTests : Bool} {place : Place}

/-! ## How listed paths begin -/

/-- An include that leads down from a directory: a path that goes on from it by names, or a pattern with
components that are names. -/
def LeadsDown (base : Path) (s : String) : Prop :=
  if Pattern.isWild s then PatternBelow base s else (base.join s).GoesOn base.parts

theorem goesOn_of_mem_includeRoots (ht : t.Proper) (hdown : LeadsDown base s)
    (hroot : root ∈ (includeRoots t base s).1) :
    if Pattern.isWild s then root.GoesOn base.trail else root.GoesOn base.parts := by
  unfold includeRoots at hroot
  unfold LeadsDown at hdown
  cases hwild : Pattern.isWild s with
  | true =>
    simp only [hwild, if_true] at hroot hdown ⊢
    cases hexpand : expand t (base.join s) with
    | error e =>
      rw [hexpand] at hroot
      cases hroot
    | ok paths =>
      rw [hexpand] at hroot
      exact goesOn_of_expand ht hwild hdown hexpand hroot
  | false =>
    simp only [hwild, Bool.false_eq_true, if_false] at hroot hdown ⊢
    split at hroot
    · rw [List.mem_singleton.1 hroot]
      exact hdown
    · cases hroot

/-- A listed path goes on by names from the directory, as it is written or without its dot. -/
theorem goesOn_of_mem_scan (ht : t.Proper) (hincludes : ∀ s ∈ includes, LeadsDown base s)
    (hp : p ∈ (scan t base includes ignores ignoreTests).files) :
    (p.GoesOn base.parts ∧ (includes = [] ∨ ∃ s ∈ includes, Pattern.isWild s = false)) ∨
      p.GoesOn base.trail ∧ ∃ s ∈ includes, Pattern.isWild s = true := by
  obtain ⟨root, hroot, paths, hwalk, hmem⟩ := (meets_of_mem_scan hp).exists_root
  have hgoes := walk_goesOn ht hwalk hmem
  rcases mem_scanRoots.1 hroot with ⟨hnone, rfl⟩ | ⟨s, hs, hroot⟩
  · exact .inl ⟨hgoes, .inl hnone⟩
  · have hstart := goesOn_of_mem_includeRoots ht (hincludes s hs) hroot
    cases hwild : Pattern.isWild s with
    | true =>
      rw [hwild, if_pos rfl] at hstart
      exact .inr ⟨hstart.trans hgoes, s, hs, hwild⟩
    | false =>
      rw [hwild, if_neg Bool.false_ne_true] at hstart
      exact .inl ⟨hstart.trans hgoes, .inr ⟨s, hs, hwild⟩⟩

theorem trail_eq_parts (h : base.parts.head? ≠ some .here) : base.trail = base.parts := by
  unfold Path.trail
  split
  · next heq =>
    rw [heq] at h
    exact absurd rfl h
  · rfl

/-- Below a directory without a dot, or without patterns, all listed paths are written below it. -/
theorem goesOn_parts_of_mem_scan (ht : t.Proper) (hincludes : ∀ s ∈ includes, LeadsDown base s)
    (halike : base.parts.head? ≠ some .here ∨ ∀ s ∈ includes, Pattern.isWild s = false)
    (hp : p ∈ (scan t base includes ignores ignoreTests).files) : p.GoesOn base.parts := by
  rcases goesOn_of_mem_scan ht hincludes hp with ⟨hgoes, -⟩ | ⟨hgoes, s, hs, hwild⟩
  · exact hgoes
  · rcases halike with hhere | hpaths
    · rwa [trail_eq_parts hhere] at hgoes
    · rw [hpaths s hs] at hwild
      cases hwild

/-! ## Ignores -/

/-- No listed path is written below an ignore that is a path. Where includes and the ignore lead down from
the directory, and the directory does not begin with a dot or no include is a pattern, no listed path
leads to a place at or below that of the ignore either. -/
theorem scan_leaves_out (t : FileTree) (base : Path) (includes ignores : List String)
    (ignoreTests : Bool) (hs : s ∈ ignores) (hpath : Pattern.isWild s = false)
    (hp : p ∈ (scan t base includes ignores ignoreTests).files) :
    p.isBelow (base.join s) = false ∧
      (t.Proper → (∀ i ∈ includes, LeadsDown base i) → LeadsDown base s →
        (base.parts.head? ≠ some .here ∨ ∀ i ∈ includes, Pattern.isWild i = false) →
        ¬ (base.join s).placeFrom t.current <+: p.placeFrom t.current ∧
        (t.Linkless → ∀ place place', t.locate true (base.join s) = .ok (.there place) →
          t.locate true p = .ok (.there place') → ¬ place <+: place')) := by
  have hnot : p.isBelow (base.join s) = false := by
    rw [← Bool.not_eq_true]
    intro hbelow
    have hcovers := covers_scanIgnores ignoreTests hs hpath hbelow
    rw [(meets_of_mem_scan hp).not_covers] at hcovers
    cases hcovers
  refine ⟨hnot, fun ht hincludes hdown halike => ?_⟩
  have hignore : (base.join s).GoesOn base.parts := by
    rwa [LeadsDown, hpath, if_neg Bool.false_ne_true] at hdown
  have hgoes := goesOn_parts_of_mem_scan ht hincludes halike hp
  have hplace : ¬ (base.join s).placeFrom t.current <+: p.placeFrom t.current := by
    intro hprefix
    rw [Path.isBelow_of_placeFrom_prefix hgoes hignore hprefix] at hnot
    cases hnot
  refine ⟨hplace, fun hlinkless place place' hlocate hlocate' => ?_⟩
  rw [hlinkless.place_of_locate hlocate, hlinkless.place_of_locate hlocate']
  exact hplace

/-- A directory with a source file and with a directory of other ones. -/
def vendorTree : FileTree where
  entries :=
    [(["src"], .directory), (["src", "main.ts"], .file (.text "")), (["src", "vendor"], .directory),
      (["src", "vendor", "lib.ts"], .file (.text ""))]

theorem linkless_vendorTree : vendorTree.Linkless :=
  FileTree.linkless_of_entries (by simp [vendorTree])

theorem scan_leaves_out_vendorTree :
    let base : Path := ⟨"src"⟩
    let p : Path := ⟨"src/main.ts"⟩
    "vendor" ∈ ["vendor"] ∧ Pattern.isWild "vendor" = false ∧
      p ∈ (scan vendorTree base ["**/*.ts"] ["vendor"] false).files ∧
      vendorTree.Proper ∧ (∀ i ∈ ["**/*.ts"], LeadsDown base i) ∧ LeadsDown base "vendor" ∧
      base.parts.head? ≠ some .here ∧ vendorTree.Linkless ∧
      vendorTree.locate true (base.join "vendor") = .ok (.there ["src", "vendor"]) ∧
      vendorTree.locate true p = .ok (.there ["src", "main.ts"]) ∧
      p.isBelow (base.join "vendor") = false ∧ ¬ ["src", "vendor"] <+: ["src", "main.ts"] := by
  intro base p
  have hs : "vendor" ∈ ["vendor"] := List.mem_cons_self
  have hpath : Pattern.isWild "vendor" = false := by decide
  have hp : p ∈ (scan vendorTree base ["**/*.ts"] ["vendor"] false).files := by decide +kernel
  have hproper : vendorTree.Proper := by decide +kernel
  have hincludes : ∀ i ∈ ["**/*.ts"], LeadsDown base i := by
    intro i hi
    rw [List.mem_singleton.1 hi]
    have hbelow : PatternBelow base "**/*.ts" := ⟨by decide +kernel, by decide +kernel⟩
    exact hbelow
  have hdown : LeadsDown base "vendor" := ⟨["vendor"], by decide⟩
  have hhere : base.parts.head? ≠ some .here := by decide
  have hignored : vendorTree.locate true (base.join "vendor") = .ok (.there ["src", "vendor"]) := by
    decide +kernel
  have hlisted : vendorTree.locate true p = .ok (.there ["src", "main.ts"]) := by decide +kernel
  obtain ⟨hbelow, hplaces⟩ :=
    scan_leaves_out vendorTree base ["**/*.ts"] ["vendor"] false hs hpath hp
  obtain ⟨-, hlinkless⟩ := hplaces hproper hincludes hdown (.inl hhere)
  exact ⟨hs, hpath, hp, hproper, hincludes, hdown, hhere, linkless_vendorTree, hignored, hlisted, hbelow,
    hlinkless linkless_vendorTree _ _ hignored hlisted⟩

/-- Below the working directory a pattern lists a file in a directory that is to be ignored. -/
theorem scan_lists_ignored_vendorTree :
    let base : Path := ⟨"./"⟩
    Pattern.isWild "src/vendor" = false ∧
      vendorTree.locate true (base.join "src/vendor") = .ok (.there ["src", "vendor"]) ∧
      ∃ p ∈ (scan vendorTree base ["**/*.ts"] ["src/vendor"] false).files,
        vendorTree.locate true p = .ok (.there ["src", "vendor", "lib.ts"]) := by
  decide +kernel

/-! ## Files that are listed once -/

/-- All listed paths go on by names from the same beginning where includes write what they find alike. -/
theorem exists_start_of_scan (ht : t.Proper) (hincludes : ∀ s ∈ includes, LeadsDown base s)
    (halike : base.parts.head? ≠ some .here ∨ (∀ s ∈ includes, Pattern.isWild s = false) ∨
      includes ≠ [] ∧ ∀ s ∈ includes, Pattern.isWild s = true) :
    ∃ parts, ∀ p ∈ (scan t base includes ignores ignoreTests).files, p.GoesOn parts := by
  rcases halike with hhere | hpaths | ⟨hne, hpatterns⟩
  · exact ⟨base.parts, fun p hp => goesOn_parts_of_mem_scan ht hincludes (.inl hhere) hp⟩
  · exact ⟨base.parts, fun p hp => goesOn_parts_of_mem_scan ht hincludes (.inr hpaths) hp⟩
  · refine ⟨base.trail, fun p hp => ?_⟩
    rcases goesOn_of_mem_scan ht hincludes hp with ⟨-, hnone | ⟨s, hs, hpath⟩⟩ | ⟨hgoes, -⟩
    · exact absurd hnone hne
    · rw [hpatterns s hs] at hpath
      cases hpath
    · exact hgoes

theorem scanRoots_subset (hsame : ∀ s, s ∈ includes ↔ s ∈ includes') :
    (scanRoots t base includes).1 ⊆ (scanRoots t base includes').1 := by
  intro root hroot
  rcases mem_scanRoots.1 hroot with ⟨hnone, rfl⟩ | ⟨s, hs, hroot⟩
  · refine mem_scanRoots.2 (.inl ⟨?_, rfl⟩)
    apply List.eq_nil_iff_forall_not_mem.2
    intro s hs
    have hnever := (hsame s).2 hs
    rw [hnone] at hnever
    cases hnever
  · exact mem_scanRoots.2 (.inr ⟨s, (hsame s).1 hs, hroot⟩)

/-- A file that is listed for some includes is listed for the same includes in any order. -/
theorem exists_listed_of_same (hlinkless : t.Linkless) (hsame : ∀ s, s ∈ includes ↔ s ∈ includes')
    (hp : p ∈ (scan t base includes ignores ignoreTests).files)
    (hlocate : t.locate true p = .ok (.there place)) :
    ∃ q ∈ (scan t base includes' ignores ignoreTests).files,
      t.locate true q = .ok (.there place) := by
  obtain ⟨q, hq, hparts⟩ := exists_mem_scan ((meets_of_mem_scan hp).subset (scanRoots_subset hsame))
  obtain ⟨place', hlocate'⟩ := FileTree.exists_locate_of_isFile (meets_of_mem_scan hq).isFile
  have hplace : place' = place := by
    rw [hlinkless.place_of_locate hlocate', hlinkless.place_of_locate hlocate, Path.placeFrom, hparts]
    rfl
  exact ⟨q, hq, by rw [hlocate', hplace]⟩

/-- In a file system without links, no file is listed twice where includes lead down from the directory and
write what they find alike: the directory does not begin with a dot, or all includes are paths, or all are
patterns. Which files are listed depends only on which includes there are. -/
theorem scan_lists_once (t : FileTree) (hlinkless : t.Linkless) (base : Path)
    (includes ignores : List String) (ignoreTests : Bool) :
    (t.Proper → (∀ i ∈ includes, LeadsDown base i) →
      (base.parts.head? ≠ some .here ∨ (∀ i ∈ includes, Pattern.isWild i = false) ∨
        includes ≠ [] ∧ ∀ i ∈ includes, Pattern.isWild i = true) →
      (scan t base includes ignores ignoreTests).files.Pairwise fun p q =>
        ∀ place, t.locate true p = .ok (.there place) → t.locate true q ≠ .ok (.there place)) ∧
    ∀ includes' : List String, (∀ i, i ∈ includes ↔ i ∈ includes') → ∀ place,
      (∃ p ∈ (scan t base includes ignores ignoreTests).files, t.locate true p = .ok (.there place)) ↔
        ∃ p ∈ (scan t base includes' ignores ignoreTests).files, t.locate true p = .ok (.there place) := by
  refine ⟨fun ht hincludes halike => ?_, fun includes' hsame place => ⟨?_, ?_⟩⟩
  -- Listed paths have different components, so from one beginning they lead to different places.
  · obtain ⟨parts, hstart⟩ := exists_start_of_scan ht hincludes halike
    refine List.Pairwise.imp_of_mem ?_ (scan_pairwise t base includes ignores ignoreTests)
    intro p q hp hq hne place hplace hsame
    apply hne
    apply Path.parts_eq_of_placeFrom_eq (hstart p hp) (hstart q hq)
    rw [← hlinkless.place_of_locate hplace, ← hlinkless.place_of_locate hsame]
  · rintro ⟨p, hp, hlocate⟩
    exact exists_listed_of_same hlinkless hsame hp hlocate
  · rintro ⟨p, hp, hlocate⟩
    exact exists_listed_of_same hlinkless (fun i => (hsame i).symm) hp hlocate

theorem scan_lists_once_vendorTree :
    let base : Path := ⟨"src"⟩
    let includes := ["vendor", "**/*.ts"]
    let files := (scan vendorTree base includes [] false).files
    vendorTree.Linkless ∧ vendorTree.Proper ∧ (∀ i ∈ includes, LeadsDown base i) ∧
      base.parts.head? ≠ some .here ∧ files.length = 2 ∧
      (files.Pairwise fun p q => ∀ place, vendorTree.locate true p = .ok (.there place) →
        vendorTree.locate true q ≠ .ok (.there place)) ∧
      ∃ p ∈ (scan vendorTree base ["**/*.ts", "vendor", "**/*.ts"] [] false).files,
        vendorTree.locate true p = .ok (.there ["src", "main.ts"]) := by
  intro base includes files
  have hproper : vendorTree.Proper := by decide +kernel
  have hincludes : ∀ i ∈ includes, LeadsDown base i := by
    intro i hi
    rcases List.mem_cons.1 hi with rfl | hi
    · exact ⟨["vendor"], by decide⟩
    · rw [List.mem_singleton.1 hi]
      have hbelow : PatternBelow base "**/*.ts" := ⟨by decide +kernel, by decide +kernel⟩
      exact hbelow
  have hhere : base.parts.head? ≠ some .here := by decide
  have honce := scan_lists_once vendorTree linkless_vendorTree base includes [] false
  have hsame : ∀ i, i ∈ includes ↔ i ∈ ["**/*.ts", "vendor", "**/*.ts"] := by
    intro i
    simp only [includes, List.mem_cons, List.not_mem_nil, or_false]
    tauto
  have hlisted : ∃ p ∈ files, vendorTree.locate true p = .ok (.there ["src", "main.ts"]) := by
    decide +kernel
  exact ⟨linkless_vendorTree, hproper, hincludes, hhere, by decide +kernel,
    honce.1 hproper hincludes (.inl hhere), (honce.2 _ hsame _).1 hlisted⟩

/-- Below the working directory a path and a pattern list the same file twice. -/
theorem scan_lists_twice_vendorTree :
    let files := (scan vendorTree ⟨"./"⟩ ["src", "src/**/*.ts"] [] false).files
    vendorTree.Linkless ∧ ∃ p ∈ files, ∃ q ∈ files, p ≠ q ∧
      vendorTree.locate true p = .ok (.there ["src", "main.ts"]) ∧
      vendorTree.locate true q = .ok (.there ["src", "main.ts"]) := by
  intro files
  exact ⟨linkless_vendorTree, by decide +kernel⟩

end DocBlock.Files
