import DocBlock.Config.Search
import DocBlock.Proofs.Path.Upwards

/-! # Which configuration is found

The search is a loop that goes up from a directory, one directory a round, and looks for a
configuration file first and for a repository afterwards (`Searches`). It ends with what `find?` gives
(`searches_find?`), and what it finds is the file of the nearest directory that has one, unless a
repository begins before (`find?_eq_some_iff_isNearest`). -/

namespace DocBlock.Config

open Files

variable {t : FileTree} {start dir parent : Path} {name : String} {result result' : Option Path}

/-! ## The search as a loop -/

/-- Whether a directory has an entry of a name; a link has to lead to something. -/
def Holds (t : FileTree) (dir : Path) (name : String) : Prop :=
  ∃ entry, t.status (dir.join name) = .ok entry

theorem pathExists_iff_holds : t.pathExists (dir.join name) = true ↔ Holds t dir name := by
  rw [FileTree.pathExists, Holds]
  cases t.status (dir.join name) with
  | error cause => exact ⟨fun h => by (cases h), fun ⟨_, h⟩ => by (cases h)⟩
  | ok entry => exact ⟨fun _ => ⟨entry, rfl⟩, fun _ => rfl⟩

/-- What a search from a directory ends with. A directory without a configuration and without a
repository is left for the one above. -/
inductive Searches (t : FileTree) : Path → Option Path → Prop
  | found {dir : Path} (file : Holds t dir fileName) : Searches t dir (some (dir.join fileName))
  | stopped {dir : Path} (no_file : ¬ Holds t dir fileName) (mark : Holds t dir repositoryMark) :
      Searches t dir none
  | top {dir : Path} (no_file : ¬ Holds t dir fileName) (no_mark : ¬ Holds t dir repositoryMark)
      (no_parent : dir.parent? = none) : Searches t dir none
  | up {dir parent : Path} {result : Option Path} (no_file : ¬ Holds t dir fileName)
      (no_mark : ¬ Holds t dir repositoryMark) (above : dir.parent? = some parent)
      (rest : Searches t parent result) : Searches t dir result

/-- Two searches from one directory end alike. -/
theorem Searches.unique (h : Searches t dir result) (h' : Searches t dir result') :
    result = result' := by
  induction h generalizing result' with
  | found hfile =>
    cases h' with
    | found => rfl
    | stopped hno => exact absurd hfile hno
    | top hno => exact absurd hfile hno
    | up hno => exact absurd hfile hno
  | stopped hno hmark =>
    cases h' with
    | found hfile => exact absurd hfile hno
    | stopped => rfl
    | top => rfl
    | up _ hnot => exact absurd hmark hnot
  | top hno hnot hparent =>
    cases h' with
    | found hfile => exact absurd hfile hno
    | stopped => rfl
    | top => rfl
    | up _ _ habove =>
      rw [hparent] at habove
      cases habove
  | up hno hnot habove _ ih =>
    cases h' with
    | found hfile => exact absurd hfile hno
    | stopped _ hmark => exact absurd hmark hnot
    | top _ _ hparent =>
      rw [habove] at hparent
      cases hparent
    | up _ _ habove' hrest =>
      rw [habove] at habove'
      obtain rfl := Option.some.inj habove'
      exact ih hrest

/-- One round of the search over a list of directories. -/
theorem nearest?_cons (t : FileTree) (dir : Path) (dirs : List Path) :
    (Holds t dir fileName ∧ nearest? t.pathExists (dir :: dirs) = some (dir.join fileName)) ∨
      (¬ Holds t dir fileName ∧ Holds t dir repositoryMark ∧
        nearest? t.pathExists (dir :: dirs) = none) ∨
      (¬ Holds t dir fileName ∧ ¬ Holds t dir repositoryMark ∧
        nearest? t.pathExists (dir :: dirs) = nearest? t.pathExists dirs) := by
  rw [nearest?]
  simp only [← pathExists_iff_holds]
  split
  · rename_i hfile
    exact .inl ⟨hfile, rfl⟩
  · rename_i hno
    split
    · rename_i hmark
      exact .inr (.inl ⟨hno, hmark, rfl⟩)
    · rename_i hnot
      exact .inr (.inr ⟨hno, hnot, rfl⟩)

theorem searches_of_parent?_eq_none (hparent : dir.parent? = none) :
    Searches t dir (nearest? t.pathExists [dir]) := by
  rcases nearest?_cons t dir [] with ⟨hfile, heq⟩ | ⟨hno, hmark, heq⟩ | ⟨hno, hnot, heq⟩
  · exact heq ▸ .found hfile
  · exact heq ▸ .stopped hno hmark
  · exact heq ▸ .top hno hnot hparent

/-- The bound on the number of directories is never reached. -/
theorem searches_nearest? (n : Nat) (hn : dir.parts.length ≤ n) :
    Searches t dir (nearest? t.pathExists (Path.upwardsN n dir)) := by
  induction n generalizing dir with
  | zero =>
    have hempty : dir.parts = [] := List.eq_nil_of_length_eq_zero (Nat.le_zero.1 hn)
    exact searches_of_parent?_eq_none (Path.parent?_eq_none_iff.2 (.inl hempty))
  | succ n ih =>
    rw [Path.upwardsN]
    cases hparent : dir.parent? with
    | none => exact searches_of_parent?_eq_none hparent
    | some parent =>
      have hlength := Path.length_parts_of_parent? hparent
      rcases nearest?_cons t dir (Path.upwardsN n parent) with
        ⟨hfile, heq⟩ | ⟨hno, hmark, heq⟩ | ⟨hno, hnot, heq⟩
      · exact heq ▸ .found hfile
      · exact heq ▸ .stopped hno hmark
      · exact heq ▸ .up hno hnot hparent (ih (by omega))

theorem searches_find? (t : FileTree) (dir : Path) : Searches t dir (find? t dir) :=
  searches_nearest? _ dir.length_parts_le

/-! ## The nearest configuration -/

/-- Whether a directory is the nearest one, from another one upwards, that holds a configuration, with no
repository on the way to it. -/
structure IsNearest (t : FileTree) (start dir : Path) : Prop where
  above : start.Climbs dir
  file : Holds t dir fileName
  between : ∀ b, start.Climbs b → b.Climbs dir → b ≠ dir →
    ¬ Holds t b fileName ∧ ¬ Holds t b repositoryMark

/-- What is nearest from the parent of a directory is nearest from the directory, when nothing there ends
the search. -/
theorem IsNearest.up (h : IsNearest t parent dir) (hparent : start.parent? = some parent)
    (hno : ¬ Holds t start fileName) (hnot : ¬ Holds t start repositoryMark) :
    IsNearest t start dir where
  above := Path.climbs_iff.2 (.inr ⟨parent, hparent, h.above⟩)
  file := h.file
  between b hb hdir hne := by
    rcases Path.climbs_iff.1 hb with rfl | ⟨parent', hparent', hup⟩
    · exact ⟨hno, hnot⟩
    · rw [hparent] at hparent'
      obtain rfl := Option.some.inj hparent'
      exact h.between b hup hdir hne

theorem Searches.exists_isNearest {file : Path} (h : Searches t start (some file)) :
    ∃ dir, IsNearest t start dir ∧ file = dir.join fileName := by
  generalize hresult : some file = result at h
  induction h with
  | @found dir hfile =>
    refine ⟨dir, ⟨.refl, hfile, fun b hup hdown hne => ?_⟩, Option.some.inj hresult⟩
    exact absurd (hup.antisymm hdown) hne
  | stopped => cases hresult
  | top => cases hresult
  | up hno hnot hparent _ ih =>
    obtain ⟨dir, hnearest, hfile⟩ := ih hresult
    exact ⟨dir, hnearest.up hparent hno hnot, hfile⟩

theorem IsNearest.searches (h : IsNearest t start dir) : Searches t start (some (dir.join fileName)) := by
  obtain ⟨habove, hfile, hbetween⟩ := h
  induction habove using Relation.ReflTransGen.head_induction_on with
  | refl => exact .found hfile
  | @head start parent hparent hup ih =>
    have hclimbs : start.Climbs dir := Path.climbs_iff.2 (.inr ⟨parent, hparent, hup⟩)
    -- The directory stands above its child, so it is not the child.
    have hne : start ≠ dir := by
      rintro rfl
      have hlength := Path.length_parts_of_parent? hparent
      have hle := Path.Climbs.length_le hup
      omega
    obtain ⟨hno, hnot⟩ := hbetween start .refl hclimbs hne
    refine .up hno hnot hparent (ih fun b hb => ?_)
    exact hbetween b (Path.climbs_iff.2 (.inr ⟨parent, hparent, hb⟩))

/-- Finding the configuration of a directory. The search from the directory upwards ends, and with nothing
else than what is found. A file is found just when it is the configuration file of the nearest directory that
holds one, the directory itself or one above it, and no directory on the way up to that one holds a
repository; nothing is found otherwise. On the way from an absolute directory there is one directory for each
beginning of its components, from all of them to the top. -/
theorem find?_eq_some_iff_isNearest (t : FileTree) (habsolute : start.isAbsolute = true) :
    (∀ result, Searches t start result ↔ result = find? t start) ∧
      (∀ file, find? t start = some file ↔
        ∃ dir, IsNearest t start dir ∧ file = dir.join fileName) ∧
      (find? t start = none ↔ ∀ dir, ¬ IsNearest t start dir) ∧
      ∀ parts, (∃ dir, start.Climbs dir ∧ dir.parts = parts) ↔ parts ≠ [] ∧ parts <+: start.parts := by
  have hsearches := searches_find? t start
  have hsome : ∀ file, find? t start = some file ↔
      ∃ dir, IsNearest t start dir ∧ file = dir.join fileName := by
    intro file
    constructor
    · intro hfile
      exact (hfile ▸ hsearches).exists_isNearest
    · rintro ⟨dir, hnearest, rfl⟩
      exact hsearches.unique hnearest.searches
  refine ⟨fun result => ⟨fun h => h.unique hsearches, fun h => h ▸ hsearches⟩, hsome, ?_, fun parts => ?_⟩
  · rw [Option.eq_none_iff_forall_ne_some]
    constructor
    · intro hnone dir hnearest
      exact hnone _ ((hsome _).2 ⟨dir, hnearest, rfl⟩)
    · intro hnever file hfile
      obtain ⟨dir, hnearest, -⟩ := (hsome file).1 hfile
      exact hnever dir hnearest
  · exact Path.exists_climbs_iff (Path.head?_parts_of_isAbsolute habsolute)

/-- A repository with a configuration of its own and one without, in a directory with a configuration. -/
def sampleRepositories : FileTree where
  entries :=
    [(["work"], .directory), (["work", fileName], .file (.text "")),
      (["work", "docs"], .directory), (["work", "docs", repositoryMark], .directory),
      (["work", "docs", fileName], .file (.text "")), (["work", "docs", "src"], .directory),
      (["work", "bare"], .directory), (["work", "bare", repositoryMark], .directory),
      (["work", "bare", "src"], .directory)]

theorem find?_eq_some_iff_isNearest_sampleRepositories :
    (⟨"/work/docs/src"⟩ : Path).isAbsolute = true ∧ (⟨"/work/bare/src"⟩ : Path).isAbsolute = true ∧
      (∃ dir, IsNearest sampleRepositories ⟨"/work/docs/src"⟩ dir ∧
        (⟨"/work/docs/.tsjsdocrc.json"⟩ : Path) = dir.join fileName) ∧
      (∀ dir, ¬ IsNearest sampleRepositories ⟨"/work/bare/src"⟩ dir) ∧
      Searches sampleRepositories ⟨"/work/./bare//src/"⟩ none := by
  refine ⟨by decide, by decide, ?_, ?_, ?_⟩
  · exact ((find?_eq_some_iff_isNearest sampleRepositories (by decide)).2.1 _).1 (by decide +kernel)
  · exact (find?_eq_some_iff_isNearest sampleRepositories (by decide)).2.2.1.1 (by decide +kernel)
  · exact ((find?_eq_some_iff_isNearest sampleRepositories (by decide)).1 _).2 (by decide +kernel)

end DocBlock.Config
