import DocBlock.Files.Tree
import DocBlock.Proofs.Error
import DocBlock.Proofs.Path.Parts

/-! # Where paths lead

Following a path goes piece by piece, and each piece does one of few things (`Follows`), so what holds of
where a path leads is shown by going through these (`follows_of_followPieces`). In a file system without links a path that leads to something leads to the place that it names as it is
written (`Linkless.place_of_locate`). In a directory only names are listed, when all places in the file
system are written with names (`Proper.isName_of_mem_list`). -/

namespace DocBlock

namespace Files.FileTree

variable {t : FileTree} {p : Path} {place : Place} {name : String}

/-! ## Following pieces -/

/-- How the pieces of a path lead from a directory to what is found. -/
inductive Follows (t : FileTree) (last : Bool)
    (link : Place → List (List Char) → Except SystemError Found) :
    Place → List (List Char) → Found → Prop
  | done (dir : Place) : Follows t last link dir [] (.there dir)
  | skip {dir : Place} {piece : List Char} {rest : List (List Char)} {found : Found}
      (hpart : Path.part? piece = none) (hrest : Follows t last link dir rest found) :
      Follows t last link dir (piece :: rest) found
  | up {dir : Place} {piece : List Char} {rest : List (List Char)} {found : Found}
      (hpart : Path.part? piece = some .up) (hrest : Follows t last link dir.dropLast rest found) :
      Follows t last link dir (piece :: rest) found
  /-- The last name may be missing. -/
  | missing {dir : Place} {piece : List Char}
      (hpart : Path.part? piece = some (.name (String.ofList piece)))
      (hshort : ¬ maxNameBytes < (String.ofList piece).utf8ByteSize)
      (hentry : t.entry? (dir ++ [String.ofList piece]) = none) :
      Follows t last link dir [piece] (.missing (dir ++ [String.ofList piece]))
  | directory {dir : Place} {piece : List Char} {rest : List (List Char)} {found : Found}
      (hpart : Path.part? piece = some (.name (String.ofList piece)))
      (hshort : ¬ maxNameBytes < (String.ofList piece).utf8ByteSize)
      (hentry : t.entry? (dir ++ [String.ofList piece]) = some .directory)
      (hrest : Follows t last link (dir ++ [String.ofList piece]) rest found) :
      Follows t last link dir (piece :: rest) found
  /-- The last name may be that of a file. -/
  | file {dir : Place} {piece : List Char} {content : Content}
      (hpart : Path.part? piece = some (.name (String.ofList piece)))
      (hshort : ¬ maxNameBytes < (String.ofList piece).utf8ByteSize)
      (hentry : t.entry? (dir ++ [String.ofList piece]) = some (.file content)) :
      Follows t last link dir [piece] (.there (dir ++ [String.ofList piece]))
  /-- A link at the end need not be followed. -/
  | stop {dir : Place} {piece : List Char} {target : Path}
      (hpart : Path.part? piece = some (.name (String.ofList piece)))
      (hshort : ¬ maxNameBytes < (String.ofList piece).utf8ByteSize)
      (hentry : t.entry? (dir ++ [String.ofList piece]) = some (.link target)) (hlast : last = false) :
      Follows t last link dir [piece] (.there (dir ++ [String.ofList piece]))
  | link {dir : Place} {piece : List Char} {rest : List (List Char)} {target : Path} {found : Found}
      (hpart : Path.part? piece = some (.name (String.ofList piece)))
      (hshort : ¬ maxNameBytes < (String.ofList piece).utf8ByteSize)
      (hentry : t.entry? (dir ++ [String.ofList piece]) = some (.link target))
      (hgoes : ¬ (rest.isEmpty && !last) = true)
      (hfound : link (if target.isAbsolute then [] else dir) (target.pieces ++ rest) = .ok found) :
      Follows t last link dir (piece :: rest) found

theorem follows_of_followPieces {last : Bool}
    {link : Place → List (List Char) → Except SystemError Found} {found : Found} :
    ∀ (pieces : List (List Char)) (dir : Place),
      t.followPieces last link dir pieces = .ok found → Follows t last link dir pieces found
  | [], dir, h => by
    cases h
    exact .done dir
  | piece :: rest, dir, h => by
    have ih : ∀ dir, t.followPieces last link dir rest = .ok found → Follows t last link dir rest found :=
      follows_of_followPieces rest
    unfold followPieces at h
    split at h
    · next hpart => exact .skip hpart (ih dir h)
    · next hpart => exact .up hpart (ih dir.dropLast h)
    · next part hup hpart =>
      rw [(Path.up_or_name_of_part? hpart).resolve_left hup] at hpart
      simp only at h
      split at h
      · cases h
      · next hshort =>
        split at h
        · next hentry =>
          split at h
          · next hrest =>
            cases h
            rw [List.isEmpty_iff.1 hrest]
            exact .missing hpart hshort hentry
          · cases h
        · next hentry => exact .directory hpart hshort hentry (ih _ h)
        · next hentry =>
          split at h
          · next hrest =>
            cases h
            rw [List.isEmpty_iff.1 hrest]
            exact .file hpart hshort hentry
          · cases h
        · next hentry =>
          split at h
          · next hend =>
            cases h
            rw [Bool.and_eq_true, Bool.not_eq_true'] at hend
            rw [List.isEmpty_iff.1 hend.1]
            exact .stop hpart hshort hentry hend.2
          · next hgoes =>
            refine .link hpart hshort hentry hgoes ?_
            split at h
            · next habsolute => rw [if_pos habsolute, h]
            · next hrelative => rw [if_neg hrelative, h]

theorem Follows.followPieces {last : Bool}
    {link : Place → List (List Char) → Except SystemError Found} {dir : Place}
    {pieces : List (List Char)} {found : Found} (h : Follows t last link dir pieces found) :
    t.followPieces last link dir pieces = .ok found := by
  induction h with
  | done dir => rfl
  | skip hpart _ ih => simp only [FileTree.followPieces, hpart, ih]
  | up hpart _ ih => simp only [FileTree.followPieces, hpart, ih]
  | missing hpart hshort hentry => simp [FileTree.followPieces, hpart, hshort, hentry]
  | directory hpart hshort hentry _ ih => simp only [FileTree.followPieces, hpart, if_neg hshort, hentry, ih]
  | file hpart hshort hentry => simp [FileTree.followPieces, hpart, hshort, hentry]
  | stop hpart hshort hentry hlast => simp [FileTree.followPieces, hpart, hshort, hentry, hlast]
  | @link dir piece rest target found hpart hshort hentry hgoes hfound =>
    simp only [FileTree.followPieces, hpart, if_neg hshort, hentry, if_neg hgoes]
    split
    · next habsolute => rwa [if_pos habsolute] at hfound
    · next hrelative => rwa [if_neg hrelative] at hfound

/-- However many links may be followed, the pieces lead on in this way. -/
theorem exists_follows {last : Bool} {n : Nat} {dir : Place} {pieces : List (List Char)} {found : Found}
    (h : t.follow last n dir pieces = .ok found) : ∃ link, Follows t last link dir pieces found := by
  cases n with
  | zero => exact ⟨_, follows_of_followPieces pieces dir h⟩
  | succ n => exact ⟨_, follows_of_followPieces pieces dir h⟩

/-- A path that can be followed is a path of a file system, followed from the top or from the working
directory. -/
theorem follow_of_locate {last : Bool} {found : Found} (h : t.locate last p = .ok found) :
    p.text ≠ "" ∧ t.follow last maxLinks (if p.isAbsolute then [] else t.current) p.pieces = .ok found := by
  unfold locate at h
  split at h
  · cases h
  · next htext =>
    split at h
    · cases h
    · split at h
      · cases h
      · exact ⟨by simpa using htext, h⟩

/-! ## File systems without links -/

/-- A file system without links. -/
def Linkless (t : FileTree) : Prop :=
  ∀ place target, t.entry? place ≠ some (.link target)

/-- Where no entry is a link, there are no links. -/
theorem linkless_of_entries (h : ∀ e ∈ t.entries, ∀ target, e.2 ≠ .link target) : t.Linkless := by
  intro place target hlink
  unfold entry? at hlink
  split at hlink
  · cases hlink
  · obtain ⟨e, hfound, hentry⟩ := Option.map_eq_some_iff.1 hlink
    exact h e (List.mem_of_find?_eq_some hfound) target hentry

theorem Linkless.place_of_follows (ht : t.Linkless) {last : Bool}
    {link : Place → List (List Char) → Except SystemError Found} {dir : Place}
    {pieces : List (List Char)} {found : Found} (h : Follows t last link dir pieces found)
    (hplace : found = .there place) : place = placeOfParts dir (pieces.filterMap Path.part?) := by
  induction h with
  | done dir => exact (Found.there.inj hplace).symm
  | skip hpart _ ih =>
    rw [List.filterMap_cons_none hpart]
    exact ih hplace
  | up hpart _ ih =>
    rw [List.filterMap_cons_some hpart]
    exact ih hplace
  | missing => cases hplace
  | directory hpart _ _ _ ih =>
    rw [List.filterMap_cons_some hpart]
    exact ih hplace
  | file hpart =>
    rw [List.filterMap_cons_some hpart]
    exact (Found.there.inj hplace).symm
  | @stop dir piece target _ _ hentry => exact absurd hentry (ht _ target)
  | @link dir piece rest target _ _ _ hentry => exact absurd hentry (ht _ target)

/-- Without links a path that leads to something leads to the place that it names. -/
theorem Linkless.place_of_locate (ht : t.Linkless) {last : Bool}
    (h : t.locate last p = .ok (.there place)) : place = p.placeFrom t.current := by
  obtain ⟨htext, hfollow⟩ := follow_of_locate h
  obtain ⟨link, hfollows⟩ := exists_follows hfollow
  rw [← Path.placeOfParts_pieces htext]
  exact ht.place_of_follows hfollows rfl

/-! ## What is there -/

theorem exists_locate_of_isFile (h : t.isFile p = true) :
    ∃ place, t.locate true p = .ok (.there place) := by
  unfold isFile at h
  split at h
  · next content hstatus =>
    obtain ⟨pair, hlookup, -⟩ := Error.bind_eq_ok.1 hstatus
    obtain ⟨found, hlocate, hfound⟩ := Error.bind_eq_ok.1 hlookup
    cases found with
    | missing place => cases hfound
    | there place => exact ⟨place, hlocate⟩
  · cases h

theorem text_ne_empty_of_linkStatus {entry : Entry} (h : t.linkStatus p = .ok entry) : p.text ≠ "" := by
  obtain ⟨pair, hlookup, -⟩ := Error.bind_eq_ok.1 h
  obtain ⟨found, hlocate, -⟩ := Error.bind_eq_ok.1 hlookup
  exact (follow_of_locate hlocate).1

/-! ## Names in directories -/

/-- A file system in which all places are written with names. -/
def Proper (t : FileTree) : Prop :=
  ∀ place entry, (place, entry) ∈ t.entries → ∀ name ∈ place, Path.IsName name

instance (t : FileTree) : Decidable t.Proper :=
  decidable_of_iff (∀ e ∈ t.entries, ∀ name ∈ e.1, Path.IsName name)
    ⟨fun h place entry he => h (place, entry) he, fun h e he => h e.1 e.2 he⟩

theorem Proper.isName_of_mem_names (ht : t.Proper) (h : name ∈ t.names place) : Path.IsName name := by
  obtain ⟨⟨p, entry⟩, hmem, hname⟩ := List.mem_filterMap.1 h
  simp only at hname
  split at hname
  · exact ht p entry hmem name (List.mem_of_getLast? hname)
  · cases hname

theorem mem_insertName {other : String} {names : List String} :
    name ∈ insertName other names ↔ name = other ∨ name ∈ names := by
  induction names with
  | nil => simp [insertName]
  | cons first names ih =>
    unfold insertName
    split
    · exact List.mem_cons
    · rw [List.mem_cons, ih, List.mem_cons]
      exact or_left_comm

theorem mem_foldr_insertName {names : List String} : name ∈ names.foldr insertName [] ↔ name ∈ names := by
  induction names with
  | nil => rfl
  | cons first names ih => rw [List.foldr_cons, mem_insertName, ih, List.mem_cons]

theorem Proper.isName_of_mem_list (ht : t.Proper) (h : name ∈ t.list p) : Path.IsName name := by
  unfold list at h
  split at h
  · next place _ => exact ht.isName_of_mem_names (mem_foldr_insertName.1 h)
  · cases h

end Files.FileTree

end DocBlock
