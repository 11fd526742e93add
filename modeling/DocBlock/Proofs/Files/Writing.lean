import DocBlock.Proofs.Files.Locating

/-! # What writing keeps

Writing a text and making directories put entries into a file system and take none away: directories and
links stay, and files stay files (`FileTree.Extends`). So a path that leads to something leads to the same
place afterwards (`Extends.locate`), and after a text was written, the file that its path leads to holds
the text and every other file holds what it held before (`wrote_of_writeBelow`). -/

namespace DocBlock.Files

namespace FileTree

variable {t t' t'' : FileTree} {p : Path} {place q : Place} {entry : Entry} {text : String}

/-! ## Entries -/

theorem entry?_cons (t : FileTree) (name : String) (rest : Place) :
    t.entry? (name :: rest) = (t.entries.find? fun (p, _) => p == name :: rest).map (·.2) := rfl

@[simp] theorem current_set (t : FileTree) (place : Place) (entry : Entry) :
    (t.set place entry).current = t.current := by
  unfold set
  split <;> rfl

/-- The first entry that is found for a place after each entry for some place is replaced. -/
theorem find?_map_replace (entries : List (Place × Entry)) (place q : Place) (entry : Entry) :
    ((entries.map fun (p, e) => if p == place then (p, entry) else (p, e)).find?
      fun (p, _) => p == q).map (·.2) =
    if q = place then ((entries.find? fun (p, _) => p == q).map fun _ => entry)
    else (entries.find? fun (p, _) => p == q).map (·.2) := by
  induction entries with
  | nil => simp
  | cons head rest ih =>
    obtain ⟨p, e⟩ := head
    by_cases hp : p = q
    · subst hp
      by_cases hplace : p = place
      · subst hplace
        simp
      · simp [hplace]
    · have hskip : ∀ e', ((p, e') :: rest).find? (fun (p, _) => p == q) =
          rest.find? fun (p, _) => p == q := by
        intro e'
        exact List.find?_cons_of_neg (by simpa using hp)
      rw [hskip, ← ih, List.map_cons]
      by_cases hplace : p = place
      · subst hplace
        simp [hp]
      · simp [hplace, hp]

theorem entry?_set_self (hplace : place ≠ []) : entry? (t.set place entry) place = some entry := by
  obtain ⟨name, rest, rfl⟩ := List.exists_cons_of_ne_nil hplace
  unfold set
  split
  · next hany =>
    rw [entry?_cons, find?_map_replace, if_pos rfl]
    obtain ⟨found, hfound⟩ := Option.isSome_iff_exists.1 (List.find?_isSome.2 (List.any_eq_true.1 hany))
    rw [hfound]
    rfl
  · next hany =>
    have hnone := List.find?_eq_none.2 (List.any_eq_false.1 (Bool.not_eq_true _ ▸ hany))
    rw [entry?_cons, List.find?_append, hnone]
    simp

theorem entry?_set_of_ne (hq : q ≠ place) : entry? (t.set place entry) q = t.entry? q := by
  cases q with
  | nil => rfl
  | cons name rest =>
    unfold set
    split
    · rw [entry?_cons, find?_map_replace, if_neg hq, entry?_cons]
    · rw [entry?_cons, entry?_cons, List.find?_append]
      simp [Ne.symm hq]

/-! ## File systems that extend others -/

/-- A file system with every entry of another one. -/
structure Keeps (t t' : FileTree) : Prop where
  current : t'.current = t.current
  entry : ∀ {place entry}, t.entry? place = some entry → t'.entry? place = some entry

/-- A file system with everything of another one, except for what its files hold. -/
structure Extends (t t' : FileTree) : Prop where
  current : t'.current = t.current
  directory : ∀ {place}, t.entry? place = some .directory → t'.entry? place = some .directory
  link : ∀ {place target}, t.entry? place = some (.link target) → t'.entry? place = some (.link target)
  file : ∀ {place content}, t.entry? place = some (.file content) →
    ∃ content', t'.entry? place = some (.file content')

namespace Keeps

theorem refl (t : FileTree) : t.Keeps t := ⟨rfl, id⟩

theorem trans (h : t.Keeps t') (h' : t'.Keeps t'') : t.Keeps t'' :=
  ⟨h'.current.trans h.current, fun he => h'.entry (h.entry he)⟩

/-- Something new where nothing was. -/
theorem set (hplace : t.entry? place = none) (entry : Entry) : t.Keeps (t.set place entry) := by
  refine ⟨current_set t place entry, ?_⟩
  intro q e hq
  rw [entry?_set_of_ne ?_, hq]
  rintro rfl
  rw [hplace] at hq
  cases hq

theorem toExtends (h : t.Keeps t') : t.Extends t' :=
  ⟨h.current, h.entry, h.entry, fun hf => ⟨_, h.entry hf⟩⟩

end Keeps

namespace Extends

theorem refl (t : FileTree) : t.Extends t := (Keeps.refl t).toExtends

theorem trans (h : t.Extends t') (h' : t'.Extends t'') : t.Extends t'' where
  current := h'.current.trans h.current
  directory hd := h'.directory (h.directory hd)
  link hl := h'.link (h.link hl)
  file hf := by
    obtain ⟨content, hf⟩ := h.file hf
    exact h'.file hf

/-- Another content in a file. -/
theorem set_of_file {content : Content} (hplace : t.entry? place = some (.file content))
    (content' : Content) : t.Extends (t.set place (.file content')) := by
  have hne : place ≠ [] := by
    rintro rfl
    cases hplace
  have hother : ∀ {q e}, t.entry? q = some e → (∀ c, e ≠ .file c) →
      entry? (t.set place (.file content')) q = some e := by
    intro q e hq he
    rw [entry?_set_of_ne ?_, hq]
    rintro rfl
    exact he content (Option.some.inj (hq.symm.trans hplace))
  refine ⟨current_set _ _ _, fun h => hother h (fun _ => by simp), fun h => hother h (fun _ => by simp), ?_⟩
  intro q c hq
  by_cases hself : q = place
  · exact ⟨content', by rw [hself, entry?_set_self hne]⟩
  · exact ⟨c, by rw [entry?_set_of_ne hself, hq]⟩

end Extends

/-! ## Following paths -/

/-- What was found stands at a place: it was there before, or it was missing and is a file now. -/
inductive Found.IsAt (t : FileTree) (place : Place) : Found → Prop
  | there : Found.IsAt t place (.there place)
  | missing {content : Content} (h : t.entry? place = some (.file content)) :
    Found.IsAt t place (.missing place)

namespace Extends

/-- What a path leads to is there still, whatever new stands around. -/
theorem follows (h : t.Extends t') {last : Bool}
    {link link' : Place → List (List Char) → Except SystemError Found}
    (hlink : ∀ dir pieces found, link dir pieces = .ok found → found.IsAt t' place →
      link' dir pieces = .ok (.there place))
    {dir : Place} {pieces : List (List Char)} {found : Found}
    (hfollows : Follows t last link dir pieces found) (hat : found.IsAt t' place) :
    Follows t' last link' dir pieces (.there place) := by
  induction hfollows with
  | done dir =>
    cases hat
    exact .done place
  | skip hpart _ ih => exact .skip hpart (ih hat)
  | up hpart _ ih => exact .up hpart (ih hat)
  | missing hpart hshort _ =>
    -- What was missing is a file now.
    cases hat with
    | missing hnow => exact .file hpart hshort hnow
  | directory hpart hshort hentry _ ih =>
    exact .directory hpart hshort (h.directory hentry) (ih hat)
  | file hpart hshort hentry =>
    obtain ⟨content', hnow⟩ := h.file hentry
    cases hat
    exact .file hpart hshort hnow
  | stop hpart hshort hentry hlast =>
    cases hat
    exact .stop hpart hshort (h.link hentry) hlast
  | link hpart hshort hentry hgoes hfound =>
    exact .link hpart hshort (h.link hentry) hgoes (hlink _ _ _ hfound hat)

theorem follow (h : t.Extends t') {last : Bool} : ∀ (links : Nat) (dir : Place)
    (pieces : List (List Char)) (found : Found), t.follow last links dir pieces = .ok found →
    found.IsAt t' place → t'.follow last links dir pieces = .ok (.there place)
  | 0, _, _, _, hfound, hat =>
    (h.follows (fun _ _ _ hlink => by cases hlink) (follows_of_followPieces _ _ hfound) hat).followPieces
  | links + 1, _, _, _, hfound, hat =>
    (h.follows (h.follow links) (follows_of_followPieces _ _ hfound) hat).followPieces

theorem locate_of_isAt (h : t.Extends t') {last : Bool} {found : Found}
    (hfound : t.locate last p = .ok found) (hat : found.IsAt t' place) :
    t'.locate last p = .ok (.there place) := by
  unfold FileTree.locate at hfound ⊢
  split at hfound
  · cases hfound
  · split at hfound
    · cases hfound
    · split at hfound
      · cases hfound
      · next hempty hnul hlong =>
        rw [if_neg hempty, if_neg hnul, if_neg hlong, h.current]
        exact h.follow maxLinks _ _ found hfound hat

/-- A path that leads to something leads there still. -/
theorem locate (h : t.Extends t') {last : Bool} (hplace : t.locate last p = .ok (.there place)) :
    t'.locate last p = .ok (.there place) :=
  h.locate_of_isAt hplace .there

end Extends

/-- Where nothing was found, nothing is. -/
theorem entry?_of_follows {last : Bool} {link : Place → List (List Char) → Except SystemError Found}
    (hlink : ∀ dir pieces, link dir pieces = .ok (.missing place) → t.entry? place = none)
    {dir : Place} {pieces : List (List Char)} {found : Found}
    (hfollows : Follows t last link dir pieces found) (hmissing : found = .missing place) :
    t.entry? place = none := by
  induction hfollows with
  | done => cases hmissing
  | skip _ _ ih => exact ih hmissing
  | up _ _ ih => exact ih hmissing
  | missing _ _ hentry => rwa [← Found.missing.inj hmissing]
  | directory _ _ _ _ ih => exact ih hmissing
  | file => cases hmissing
  | stop => cases hmissing
  | link _ _ _ _ hfound => exact hlink _ _ (hmissing ▸ hfound)

theorem entry?_of_follow {last : Bool} : ∀ (links : Nat) (dir : Place) (pieces : List (List Char)),
    t.follow last links dir pieces = .ok (.missing place) → t.entry? place = none
  | 0, _, _, hfound =>
    entry?_of_follows (fun _ _ hlink => by cases hlink) (follows_of_followPieces _ _ hfound) rfl
  | links + 1, _, _, hfound =>
    entry?_of_follows (entry?_of_follow links) (follows_of_followPieces _ _ hfound) rfl

theorem entry?_of_locate {last : Bool} (h : t.locate last p = .ok (.missing place)) :
    t.entry? place = none :=
  entry?_of_follow maxLinks _ _ (follow_of_locate h).2

/-! ## Writing -/

/-- Below a place that is not there, or that is a file, the top cannot be. -/
theorem ne_nil_of_not_directory (h : t.entry? place ≠ some .directory) : place ≠ [] := by
  rintro rfl
  exact h rfl

theorem keeps_of_makeDirectory (h : t.makeDirectory p = .ok t') : t.Keeps t' := by
  obtain ⟨found, hfound, hmade⟩ := Error.bind_eq_ok.1 h
  cases found with
  | there place => cases hmade
  | missing place =>
    obtain rfl := Except.ok.inj hmade
    exact .set (entry?_of_locate hfound) .directory

theorem keeps_of_ensureDirectory (h : t.ensureDirectory p = .ok t') : t.Keeps t' := by
  unfold ensureDirectory at h
  split at h
  · obtain rfl := Except.ok.inj h
    exact .refl t
  · exact keeps_of_makeDirectory h

theorem keeps_of_foldlM_ensureDirectory (paths : List Path) :
    ∀ {t t' : FileTree}, paths.foldlM ensureDirectory t = .ok t' → t.Keeps t' := by
  induction paths with
  | nil =>
    intro t t' h
    obtain rfl := Except.ok.inj h
    exact .refl t
  | cons p paths ih =>
    intro t t' h
    rw [List.foldlM_cons] at h
    obtain ⟨t₁, hp, hpaths⟩ := Error.bind_eq_ok.1 h
    exact (keeps_of_ensureDirectory hp).trans (ih hpaths)

theorem keeps_of_ensureDirectories (h : t.ensureDirectories p = .ok t') : t.Keeps t' :=
  keeps_of_foldlM_ensureDirectory _ h

/-- A text was written to the file that a path leads to, and to no other one. -/
structure Wrote (t : FileTree) (p : Path) (text : String) (t' : FileTree) (place : Place) : Prop where
  grows : t.Extends t'
  leads : t'.locate true p = .ok (.there place)
  holds : t'.entry? place = some (.file (.text text))
  others : ∀ {q content}, q ≠ place → t.entry? q = some (.file content) →
    t'.entry? q = some (.file content)

/-- A path that leads to a file with a text reads as that text. -/
theorem read_of_locate (hplace : t.locate true p = .ok (.there place))
    (hentry : t.entry? place = some (.file (.text text))) : t.read p = .ok text := by
  simp only [read, status, lookup, hplace, hentry, bind, Except.bind, pure, Except.pure]

theorem wrote_of_write (h : t.write p text = .ok t') : ∃ place, t.Wrote p text t' place := by
  obtain ⟨found, hfound, hwrite⟩ := Error.bind_eq_ok.1 h
  cases found with
  | missing place =>
    obtain rfl := Except.ok.inj hwrite
    have hnone := entry?_of_locate hfound
    have hnow : entry? (t.set place (.file (.text text))) place = some (.file (.text text)) :=
      entry?_set_self (ne_nil_of_not_directory (by rw [hnone]; simp))
    have hgrows := (Keeps.set hnone (.file (.text text))).toExtends
    refine ⟨place, hgrows, hgrows.locate_of_isAt hfound (.missing hnow), hnow, ?_⟩
    intro q content hq hentry
    rw [entry?_set_of_ne hq, hentry]
  | there place =>
    simp only at hwrite
    split at hwrite
    · next content hfile =>
      obtain rfl := Except.ok.inj hwrite
      have hnow : entry? (t.set place (.file (.text text))) place = some (.file (.text text)) :=
        entry?_set_self (ne_nil_of_not_directory (by rw [hfile]; simp))
      have hgrows := Extends.set_of_file hfile (.text text)
      refine ⟨place, hgrows, hgrows.locate hfound, hnow, ?_⟩
      intro q content hq hentry
      rw [entry?_set_of_ne hq, hentry]
    · cases hwrite

/-- Making the directories above a file leaves everything as it is. -/
theorem wrote_of_writeBelow (h : t.writeBelow p text = .ok t') : ∃ place, t.Wrote p text t' place := by
  unfold writeBelow at h
  cases hparent : p.parent? with
  | none =>
    rw [hparent] at h
    exact wrote_of_write h
  | some parent =>
    rw [hparent] at h
    obtain ⟨t₁, hmade, hwrite⟩ := Error.bind_eq_ok.1 h
    have hkeeps := keeps_of_ensureDirectories hmade
    obtain ⟨place, hwrote⟩ := wrote_of_write hwrite
    exact ⟨place, hkeeps.toExtends.trans hwrote.grows, hwrote.leads, hwrote.holds,
      fun hq hentry => hwrote.others hq (hkeeps.entry hentry)⟩

end FileTree

end DocBlock.Files
