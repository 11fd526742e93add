import DocBlock.Path
import DocBlock.Proofs.Text.Lines

/-! # Components and places

The components of a path are those of its pieces, where the first piece counts on its own
(`Path.parts_of_pieces`), so a path below a directory has the components of the directory and then its
own (`Path.parts_join`). A path leads to the place that its components name one after the other when no
links stand on the way (`Path.placeFrom`). Paths that go on by names from the same beginning lead to the
same place, or one below the other, only as their components say (`parts_eq_of_placeFrom_eq`,
`isBelow_of_placeFrom_prefix`). -/

namespace DocBlock

namespace Path

variable {p q dir : Path} {first : List Char} {others : List (List Char)}
  {name rest : String}

/-! ## Components of pieces -/

/-- The component that the first piece of a path stands for, if it means something. -/
def firstPart? (piece : List Char) : Option PathPart :=
  if piece.isEmpty then some .root
  else if piece = ['.'] then some .here
  else part? piece

/-- A piece after the first one stands for nothing, for the directory above or for its own name. -/
theorem up_or_name_of_part? {piece : List Char} {part : PathPart} (h : part? piece = some part) :
    part = .up ∨ part = .name (String.ofList piece) := by
  unfold part? at h
  split at h
  · cases h
  · split at h
    · exact .inl (Option.some.inj h).symm
    · exact .inr (Option.some.inj h).symm

theorem exists_pieces (p : Path) : ∃ first others, p.pieces = first :: others :=
  List.exists_cons_of_ne_nil (Text.splitOn_ne_nil '/' _)

theorem text_toList_eq_join (p : Path) : p.text.toList = Text.join ['/'] p.pieces :=
  (Text.join_splitOn '/' p.text.toList).symm

theorem parts_of_pieces (hpieces : p.pieces = first :: others) (htext : p.text ≠ "") :
    p.parts = (firstPart? first).toList ++ others.filterMap part? := by
  have hnot : ¬ (first = [] ∧ others = []) := by
    rintro ⟨rfl, rfl⟩
    refine htext (String.toList_inj.1 ?_)
    rw [text_toList_eq_join, hpieces]
    rfl
  unfold parts
  rw [hpieces]
  simp only [firstPart?]
  by_cases hfirst : first = []
  · have hothers : others ≠ [] := fun hothers => hnot ⟨hfirst, hothers⟩
    simp [hfirst, hothers]
  · by_cases hhere : first = ['.']
    · simp [hhere]
    · cases hpart : part? first <;> simp [hfirst, hhere, hpart]

theorem pieces_of_isAbsolute (h : p.isAbsolute = true) :
    ∃ others, p.pieces = [] :: others := by
  obtain ⟨rest, hrest⟩ := Text.startsWith_singleton_iff.1 h
  exact ⟨Text.splitOn '/' rest, by rw [pieces, hrest, Text.splitOn, if_pos rfl]⟩

theorem pieces_of_relative (h : p.isAbsolute = false) (htext : p.text ≠ "") :
    ∃ c piece others, p.pieces = (c :: piece) :: others := by
  rw [isAbsolute, ← Bool.not_eq_true, Text.startsWith_singleton_iff] at h
  cases hcs : p.text.toList with
  | nil => exact absurd (String.toList_inj.1 hcs) htext
  | cons c cs =>
    have hc : c ≠ '/' := fun hc => h ⟨cs, by rw [hcs, hc]⟩
    obtain ⟨piece, others, hpieces⟩ := List.exists_cons_of_ne_nil (Text.splitOn_ne_nil '/' cs)
    exact ⟨c, piece, others, by rw [pieces, hcs, Text.splitOn, if_neg hc, hpieces, Text.consFirst]⟩

theorem parts_empty : (⟨""⟩ : Path).parts = [] := by decide

/-- An empty piece at the end gives no component. -/
theorem parts_of_start (hstart : p.pieces = first :: others ∨ p.pieces = first :: others ++ [[]])
    (htext : p.text ≠ "") : p.parts = (firstPart? first).toList ++ others.filterMap part? := by
  rcases hstart with hpieces | hpieces
  · exact parts_of_pieces hpieces htext
  · have hempty : [[]].filterMap part? = [] := rfl
    rw [List.cons_append] at hpieces
    rw [parts_of_pieces hpieces htext, List.filterMap_append, hempty, List.append_nil]

/-! ## Paths below directories -/

theorem text_join_ne_empty (hdir : dir.text ≠ "") (rest : String) : (dir.join rest).text ≠ "" := by
  unfold join
  split
  · next h =>
    intro hrest
    simp only at hrest
    simp [hrest, Text.startsWith, Text.after?, hdir] at h
  · split <;> simp [hdir]

/-- What the pieces of a path are below a directory: those of the directory without an empty one at
the end, and its own. -/
theorem pieces_join (hdir : dir.text ≠ "") (hrest : Text.startsWith ['/'] rest.toList = false) :
    ∃ first others, (dir.join rest).pieces = first :: (others ++ Text.splitOn '/' rest.toList) ∧
      (dir.pieces = first :: others ∨ dir.pieces = first :: others ++ [[]]) := by
  have hnot : ¬ (Text.startsWith ['/'] rest.toList || dir.text.isEmpty) = true := by
    rw [hrest, Bool.false_or]
    simpa using hdir
  unfold join
  rw [if_neg hnot]
  by_cases hend : Text.endsWith ['/'] dir.text.toList = true
  · obtain ⟨before, hbefore⟩ := Text.endsWith_singleton_iff.1 hend
    obtain ⟨first, others, hfirst⟩ := List.exists_cons_of_ne_nil (Text.splitOn_ne_nil '/' before)
    rw [if_pos hend]
    refine ⟨first, others, ?_, .inr ?_⟩
    · rw [pieces, String.toList_append, hbefore, List.append_assoc, List.singleton_append,
        Text.splitOn_append_cons, hfirst, List.cons_append]
    · rw [pieces, hbefore, Text.splitOn_append_cons, hfirst]
      rfl
  · obtain ⟨first, others, hfirst⟩ := dir.exists_pieces
    rw [if_neg hend]
    refine ⟨first, others, ?_, .inl hfirst⟩
    rw [pieces, String.toList_append, String.toList_append, List.append_assoc]
    show Text.splitOn '/' (dir.text.toList ++ '/' :: rest.toList) = _
    rw [pieces] at hfirst
    rw [Text.splitOn_append_cons, hfirst, List.cons_append]

theorem parts_join (hdir : dir.text ≠ "") (hrest : Text.startsWith ['/'] rest.toList = false) :
    (dir.join rest).parts = dir.parts ++ (Text.splitOn '/' rest.toList).filterMap part? := by
  obtain ⟨first, others, hjoin, hstart⟩ := pieces_join hdir hrest
  rw [parts_of_pieces hjoin (text_join_ne_empty hdir rest), parts_of_start hstart hdir,
    List.filterMap_append, List.append_assoc]

/-! ## A dot at the beginning -/

/-- The components of a path without a single dot at the beginning. -/
def trail (p : Path) : List PathPart :=
  match p.parts with
  | .here :: rest => rest
  | parts => parts

theorem here_not_mem_filterMap_part? (pieces : List (List Char)) :
    PathPart.here ∉ pieces.filterMap part? := by
  intro h
  obtain ⟨piece, -, hpart⟩ := List.mem_filterMap.1 h
  rcases up_or_name_of_part? hpart with h | h <;> cases h

theorem trail_of_absolute (htext : p.text ≠ "")
    (hstart : p.pieces = [] :: others ∨ p.pieces = [] :: others ++ [[]]) :
    p.trail = .root :: others.filterMap part? := by
  rw [trail, parts_of_start hstart htext]
  rfl

theorem trail_of_relative (htext : p.text ≠ "") (hfirst : first ≠ [])
    (hstart : p.pieces = first :: others ∨ p.pieces = first :: others ++ [[]]) :
    p.trail = (first :: others).filterMap part? := by
  rw [trail, parts_of_start hstart htext, firstPart?, if_neg (by simpa using hfirst)]
  by_cases hhere : first = ['.']
  · rw [if_pos hhere, hhere]
    rfl
  · have hparts : (part? first).toList ++ others.filterMap part? = (first :: others).filterMap part? := by
      cases hpart : part? first <;> simp [hpart]
    rw [if_neg hhere, hparts]
    have hnever := here_not_mem_filterMap_part? (first :: others)
    split
    · next heq => exact absurd (heq ▸ List.mem_cons_self) hnever
    · rfl

/-! ## Names -/

/-- A text that is one component by itself, and a name. -/
def IsName (name : String) : Prop :=
  '/' ∉ name.toList ∧ part? name.toList = some (.name name)

instance (name : String) : Decidable (IsName name) :=
  inferInstanceAs (Decidable (_ ∧ _))

theorem IsName.ne_nil (h : IsName name) : name.toList ≠ [] := by
  intro hnil
  have hpart := h.2
  rw [hnil] at hpart
  cases hpart

theorem IsName.ne_dot (h : IsName name) : name.toList ≠ ['.'] := by
  intro hdot
  have hpart := h.2
  rw [hdot] at hpart
  cases hpart

theorem IsName.text_ne_empty (h : IsName name) : name ≠ "" := by
  rintro rfl
  exact h.ne_nil rfl

theorem IsName.pieces (h : IsName name) : (⟨name⟩ : Path).pieces = [name.toList] :=
  Text.splitOn_of_not_mem h.1

theorem IsName.parts (h : IsName name) : (⟨name⟩ : Path).parts = [.name name] := by
  rw [parts_of_pieces h.pieces h.text_ne_empty, firstPart?, if_neg (by simpa using h.ne_nil),
    if_neg h.ne_dot, h.2]
  rfl

theorem IsName.not_startsWith (h : IsName name) : Text.startsWith ['/'] name.toList = false := by
  rw [← Bool.not_eq_true, Text.startsWith_singleton_iff]
  rintro ⟨rest, hrest⟩
  exact h.1 (hrest ▸ List.mem_cons_self)

/-- A name in a directory is one component more. -/
theorem IsName.parts_join (h : IsName name) (hdir : dir.text ≠ "") :
    (dir.join name).parts = dir.parts ++ [.name name] := by
  rw [Path.parts_join hdir h.not_startsWith, Text.splitOn_of_not_mem h.1]
  simp [h.2]

/-- A path whose components are some given ones and names after them. -/
def GoesOn (p : Path) (parts : List PathPart) : Prop :=
  ∃ names : List String, p.parts = parts ++ names.map .name

theorem GoesOn.refl (p : Path) : p.GoesOn p.parts :=
  ⟨[], (List.append_nil p.parts).symm⟩

theorem GoesOn.trans {parts : List PathPart} (h : p.GoesOn parts) (h' : q.GoesOn p.parts) :
    q.GoesOn parts := by
  obtain ⟨names, hp⟩ := h
  obtain ⟨names', hq⟩ := h'
  exact ⟨names ++ names', by rw [hq, hp, List.map_append, List.append_assoc]⟩

theorem GoesOn.join (hname : IsName name) (hdir : dir.text ≠ "") : (dir.join name).GoesOn dir.parts :=
  ⟨[name], hname.parts_join hdir⟩

end Path

/-! ## Places -/

/-- The place that a component leads to from a place. -/
def PathPart.enter (place : List String) : PathPart → List String
  | .root => []
  | .here => place
  | .up => place.dropLast
  | .name text => place ++ [text]

/-- The place that components lead to from a place, one after the other. -/
def placeOfParts (place : List String) (parts : List PathPart) : List String :=
  parts.foldl PathPart.enter place

theorem placeOfParts_append (place : List String) (parts more : List PathPart) :
    placeOfParts place (parts ++ more) = placeOfParts (placeOfParts place parts) more :=
  List.foldl_append

theorem placeOfParts_names (place : List String) (names : List String) :
    placeOfParts place (names.map .name) = place ++ names := by
  induction names generalizing place with
  | nil => exact (List.append_nil place).symm
  | cons name names ih =>
    have hcons : placeOfParts place ((name :: names).map .name) =
        placeOfParts (place ++ [name]) (names.map .name) := rfl
    rw [hcons, ih, List.append_assoc, List.singleton_append]

namespace Path

variable {p q base : Path} {current : List String} {parts : List PathPart} {names : List String}

/-- The place that a path names, as it is written, when it starts from a place. -/
def placeFrom (p : Path) (current : List String) : List String :=
  placeOfParts current p.parts

theorem placeFrom_of_parts (h : p.parts = parts ++ names.map .name) :
    p.placeFrom current = placeOfParts current parts ++ names := by
  rw [placeFrom, h, placeOfParts_append, placeOfParts_names]

/-- The pieces of a path lead to the place that its components name. -/
theorem placeOfParts_pieces (htext : p.text ≠ "") (current : List String) :
    placeOfParts (if p.isAbsolute then [] else current) (p.pieces.filterMap part?) =
      p.placeFrom current := by
  cases habsolute : p.isAbsolute with
  | true =>
    obtain ⟨others, hpieces⟩ := pieces_of_isAbsolute habsolute
    rw [placeFrom, parts_of_pieces hpieces htext, hpieces]
    rfl
  | false =>
    obtain ⟨c, piece, others, hpieces⟩ := pieces_of_relative habsolute htext
    rw [placeFrom, parts_of_pieces hpieces htext, hpieces, firstPart?, if_neg (by simp)]
    by_cases hhere : c :: piece = ['.']
    · rw [if_pos hhere, hhere]
      rfl
    · rw [if_neg hhere, List.filterMap_cons]
      cases hpart : part? (c :: piece) <;> rfl

/-- Of two paths that go on by names from the same beginning, one leads below the other only if its
components begin with those of the other. -/
theorem isBelow_of_placeFrom_prefix (hp : p.GoesOn parts) (hq : q.GoesOn parts)
    (h : q.placeFrom current <+: p.placeFrom current) : p.isBelow q = true := by
  obtain ⟨names, hp⟩ := hp
  obtain ⟨names', hq⟩ := hq
  rw [placeFrom_of_parts hp, placeFrom_of_parts hq, List.prefix_append_right_inj] at h
  rw [isBelow, List.isPrefixOf_iff_prefix, hp, hq, List.prefix_append_right_inj]
  obtain ⟨rest, hrest⟩ := h
  exact ⟨rest.map .name, by rw [← List.map_append, hrest]⟩

/-- Two paths that go on by names from the same beginning lead to the same place only if they have the
same components. -/
theorem parts_eq_of_placeFrom_eq (hp : p.GoesOn parts) (hq : q.GoesOn parts)
    (h : p.placeFrom current = q.placeFrom current) : p.parts = q.parts := by
  obtain ⟨names, hp⟩ := hp
  obtain ⟨names', hq⟩ := hq
  rw [placeFrom_of_parts hp, placeFrom_of_parts hq, List.append_cancel_left_eq] at h
  rw [hp, hq, h]

end Path

end DocBlock
