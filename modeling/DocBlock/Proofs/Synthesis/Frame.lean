import DocBlock.Proofs.Comment.Enrichment
import DocBlock.Synthesis.Pass

/-! # What a step of a pass leaves alone

Entries keep their positions, so a step is described by what it does to the entries that were there
before (`Pass.Leads`). Most steps only change the one entry they are given (`Edits`), or none at all
(`Quiet`), and make further entries for types and signatures. Steps are put together with `bind`; a
fact that one of them writes is still there after the others when they write other kinds of tags
(`Builds.bind`). -/

namespace DocBlock

/-- The declaration whose own entry has this origin. -/
def EntryOrigin.own? : EntryOrigin → Option NodeId
  | .own node => some node
  | _ => none

/-! ## Entries of a collection -/

namespace Collection

variable {cs : Collection} {i j : Nat}

theorem get_push_of_lt (hi : i < cs.size) (c : Comment) : (cs.push c).get i = cs.get i := by
  simp only [get, push, List.getD_eq_getElem?_getD]
  rw [List.getElem?_append_left hi]

theorem get_push_size (cs : Collection) (c : Comment) : (cs.push c).get cs.size = c := by
  simp [get, push, size, List.getD_eq_getElem?_getD]

@[simp] theorem size_push (cs : Collection) (c : Comment) : (cs.push c).size = cs.size + 1 := by
  simp [size, push]

@[simp] theorem size_modify (cs : Collection) (i : Nat) (f : Comment → Comment) :
    (cs.modify i f).size = cs.size := by
  simp [size, modify]

theorem get_modify (hj : j < cs.size) (i : Nat) (f : Comment → Comment) :
    (cs.modify i f).get j = if i = j then f (cs.get j) else cs.get j := by
  have hsome : cs.entries[j]? = some (cs.get j) := by
    rw [get, List.getD_eq_getElem?_getD, List.getElem?_eq_getElem hj]
    rfl
  rw [get, List.getD_eq_getElem?_getD, modify, List.getElem?_modify, hsome]
  split <;> rfl

end Collection

namespace Pass

/-- A pass in which every entry has an origin. -/
def Aligned (p : Pass) : Prop :=
  p.origins.length = p.comments.size

/-- How a pass goes on: no declaration gets an entry of its own, no entry becomes canonical, and the
entries that are there change as `R` says. -/
structure Leads (R : Nat → Comment → Comment → Prop) (p p' : Pass) : Prop where
  origins : ∃ added, p'.origins = p.origins ++ added ∧ ∀ origin ∈ added, origin.own? = none
  aligned : p.Aligned → p'.Aligned
  canonical : p'.comments.canonical = p.comments.canonical
  size_le : p.comments.size ≤ p'.comments.size
  entries : ∀ i : Nat, i < p.comments.size → R i (p.comments.get i) (p'.comments.get i)

variable {R R' R'' : Nat → Comment → Comment → Prop} {p p' p'' : Pass}

theorem Leads.trans (h : p.Leads R p') (h' : p'.Leads R' p'')
    (hR : ∀ i c c' c'', R i c c' → R' i c' c'' → R'' i c c'') : p.Leads R'' p'' where
  origins := by
    obtain ⟨added, horigins, hadded⟩ := h.origins
    obtain ⟨added', horigins', hadded'⟩ := h'.origins
    refine ⟨added ++ added', by rw [horigins', horigins, List.append_assoc], ?_⟩
    intro origin hmem
    rcases List.mem_append.1 hmem with hmem | hmem
    · exact hadded origin hmem
    · exact hadded' origin hmem
  aligned hp := h'.aligned (h.aligned hp)
  canonical := by rw [h'.canonical, h.canonical]
  size_le := Nat.le_trans h.size_le h'.size_le
  entries i hi := hR i _ _ _ (h.entries i hi) (h'.entries i (Nat.lt_of_lt_of_le hi h.size_le))

theorem Leads.mono (h : p.Leads R p') (hR : ∀ i c c', R i c c' → R' i c c') : p.Leads R' p' :=
  ⟨h.origins, h.aligned, h.canonical, h.size_le, fun i hi => hR i _ _ (h.entries i hi)⟩

/-- A pass whose entries and origins stay as they are. -/
theorem Leads.of_eq (hR : ∀ i c, R i c c) (horigins : p'.origins = p.origins)
    (hentries : p'.comments.entries = p.comments.entries)
    (hcanonical : p'.comments.canonical = p.comments.canonical) : p.Leads R p' where
  origins := ⟨[], by rw [horigins, List.append_nil], fun _ hmem => absurd hmem List.not_mem_nil⟩
  aligned hp := by
    rw [Aligned, horigins, Collection.size, hentries]
    exact hp
  canonical := hcanonical
  size_le := by rw [Collection.size, Collection.size, hentries]
  entries i _ := by
    rw [Collection.get, Collection.get, hentries]
    exact hR i _

end Pass

namespace Synthesis

open Pass (Leads)

variable {α β : Type} {R R' R'' : Nat → Comment → Comment → Prop} {S T U : Comment → Comment → Prop}
  {p p' p'' : Pass} {id : Nat} {m : Synthesis α} {f : α → Synthesis β} {h : Comment}
  {ks ls : List String}

/-! ## Runs -/

theorem run_bind_eq_ok {b : β} : (m >>= f).run p = .ok (b, p'') ↔
    ∃ a p', m.run p = .ok (a, p') ∧ (f a).run p' = .ok (b, p'') := by
  rw [StateT.run_bind]
  cases hm : m.run p with
  | error e => simp [Bind.bind, Except.bind]
  | ok result =>
    obtain ⟨a, p'⟩ := result
    simp [Bind.bind, Except.bind]

theorem run_lift_eq_ok {e : Except Error α} {a : α} :
    (liftM e : Synthesis α).run p = .ok (a, p') ↔ e = .ok a ∧ p' = p := by
  cases e with
  | error e =>
    refine ⟨fun hrun => ?_, fun hrun => ?_⟩
    · cases hrun
    · cases hrun.1
  | ok a' =>
    refine ⟨fun hrun => ?_, ?_⟩
    · cases hrun
      exact ⟨rfl, rfl⟩
    · rintro ⟨heq, rfl⟩
      cases heq
      rfl

/-! ## Steps -/

/-- A step that leads every pass on as `R` says. -/
def Step (R : Nat → Comment → Comment → Prop) (m : Synthesis α) : Prop :=
  ∀ p a p', m.run p = .ok (a, p') → p.Leads R p'

theorem Step.bind (hm : Step R m) (hf : ∀ a, Step R' (f a))
    (hR : ∀ i c c' c'', R i c c' → R' i c' c'' → R'' i c c'') : Step R'' (m >>= f) := by
  intro p b p'' hrun
  obtain ⟨a, p', hfirst, hsecond⟩ := run_bind_eq_ok.1 hrun
  exact (hm p a p' hfirst).trans (hf a p' b p'' hsecond) hR

theorem Step.mono (hm : Step R m) (hR : ∀ i c c', R i c c' → R' i c c') : Step R' m :=
  fun p a p' hrun => (hm p a p' hrun).mono hR

/-- A step that changes no entry. -/
def Quiet (m : Synthesis α) : Prop :=
  Step (fun _ c c' => c' = c) m

/-- A quiet step in front does not matter. -/
theorem Step.quiet_bind (hm : Quiet m) (hf : ∀ a, Step R (f a)) : Step R (m >>= f) := by
  refine Step.bind hm hf ?_
  rintro i c c' c'' rfl hsecond
  exact hsecond

/-- A step that changes no entry but one, and that one as `S` says. -/
def Edits (id : Nat) (S : Comment → Comment → Prop) (m : Synthesis α) : Prop :=
  Step (fun i c c' => (i = id → S c c') ∧ (i ≠ id → c' = c)) m

/-- A step that changes no entry but one, and that one in any way. -/
def Touches (id : Nat) (m : Synthesis α) : Prop :=
  Edits id (fun _ _ => True) m

namespace Quiet

theorem edits (hm : Quiet m) (hS : ∀ c, S c c) : Edits id S m := by
  refine Step.mono hm ?_
  rintro i c c' rfl
  exact ⟨fun _ => hS _, fun _ => rfl⟩

theorem bind (hm : Quiet m) (hf : ∀ a, Quiet (f a)) : Quiet (m >>= f) :=
  Step.bind hm hf fun _ _ _ _ h h' => h'.trans h

theorem pure (a : α) : Quiet (Pure.pure a) := by
  intro p a' p' hrun
  cases hrun
  exact .of_eq (fun _ _ => rfl) rfl rfl rfl

theorem throw (e : Error) : Quiet (MonadExcept.throw e : Synthesis α) := by
  intro p a p' hrun
  cases hrun

theorem lift_bind {e : Except Error α} (hf : ∀ a, e = .ok a → Quiet (f a)) :
    Quiet (liftM e >>= f) := by
  intro p b p'' hrun
  obtain ⟨a, p', hlift, hrest⟩ := run_bind_eq_ok.1 hrun
  obtain ⟨ha, rfl⟩ := run_lift_eq_ok.1 hlift
  exact hf a ha _ b p'' hrest

theorem get_bind {g : Pass → Synthesis β} (hg : ∀ p, Quiet (g p)) : Quiet (get >>= g) := by
  intro p b p'' hrun
  obtain ⟨_, _, hget, hrest⟩ := run_bind_eq_ok.1 hrun
  cases hget
  exact hg p p b p'' hrest

theorem map {g : α → β} (hm : Quiet m) : Quiet (g <$> m) := by
  rw [map_eq_pure_bind]
  exact hm.bind fun _ => .pure _

theorem forM {xs : List α} {g : α → Synthesis Unit} (hg : ∀ x ∈ xs, Quiet (g x)) :
    Quiet (xs.forM g) := by
  induction xs with
  | nil => exact .pure ()
  | cons x xs ih =>
    show Quiet (g x >>= fun _ => xs.forM g)
    exact (hg x List.mem_cons_self).bind fun _ => ih fun y hy => hg y (List.mem_cons_of_mem x hy)

/-- What is done to a new entry does not show in the entries before it. -/
theorem newEntry_bind {origin : EntryOrigin} {c : Comment} {g : Nat → Synthesis β}
    (horigin : origin.own? = none) (hg : ∀ id, Touches id (g id)) :
    Quiet (newEntry origin c >>= g) := by
  intro p b p'' hrun
  obtain ⟨id, p', hnew, hrest⟩ := run_bind_eq_ok.1 hrun
  cases hnew
  obtain ⟨⟨added, horigins, hadded⟩, haligned, hcanonical, hsize, hentries⟩ :=
    hg _ _ b p'' hrest
  have hpushed : p.comments.size + 1 ≤ p''.comments.size := by
    rw [← Collection.size_push p.comments c]
    exact hsize
  refine ⟨⟨origin :: added, by rw [horigins, List.append_assoc]; rfl, ?_⟩, ?_, hcanonical,
    by omega, ?_⟩
  · intro o ho
    rcases List.mem_cons.1 ho with rfl | ho
    · exact horigin
    · exact hadded o ho
  · intro hp
    refine haligned ?_
    show (p.origins ++ [origin]).length = (p.comments.push c).size
    rw [List.length_append, Collection.size_push, hp, List.length_singleton]
  · -- The new entry stands behind all others, and only that one is touched.
    intro i hi
    have hentry := (hentries i (by rw [Collection.size_push]; omega)).2 (by omega)
    rw [hentry, Collection.get_push_of_lt hi]

end Quiet

namespace Edits

theorem bind (hm : Edits id S m) (hf : ∀ a, Edits id T (f a))
    (hU : ∀ c c' c'', S c c' → T c' c'' → U c c'') : Edits id U (m >>= f) := by
  refine Step.bind hm hf ?_
  intro i c c' c'' hfirst hsecond
  refine ⟨fun hi => hU c c' c'' (hfirst.1 hi) (hsecond.1 hi), ?_⟩
  intro hi
  rw [hsecond.2 hi, hfirst.2 hi]

theorem mono (hm : Edits id S m) (hS : ∀ c c', S c c' → T c c') : Edits id T m := by
  refine Step.mono hm ?_
  rintro i c c' ⟨hat, hoff⟩
  exact ⟨fun hi => hS c c' (hat hi), hoff⟩

theorem lift_bind {e : Except Error α} (hf : ∀ a, e = .ok a → Edits id S (f a)) :
    Edits id S (liftM e >>= f) := by
  intro p b p'' hrun
  obtain ⟨a, p', hlift, hrest⟩ := run_bind_eq_ok.1 hrun
  obtain ⟨ha, rfl⟩ := run_lift_eq_ok.1 hlift
  exact hf a ha _ b p'' hrest

theorem quiet_bind (hm : Quiet m) (hf : ∀ a, Edits id S (f a)) : Edits id S (m >>= f) :=
  Step.quiet_bind hm hf

/-- A quiet step in front, of whose result something is known. -/
theorem quiet_bind_of {V : α → Prop} (hm : Quiet m) (hV : ∀ p a p', m.run p = .ok (a, p') → V a)
    (hf : ∀ a, V a → Edits id S (f a)) : Edits id S (m >>= f) := by
  intro p b p'' hrun
  obtain ⟨a, p', hfirst, hsecond⟩ := run_bind_eq_ok.1 hrun
  refine (hm p a p' hfirst).trans (hf a (hV p a p' hfirst) p' b p'' hsecond) ?_
  rintro i c c' c'' rfl hafter
  exact hafter

/-- Changing the books of a pass does not change its entries. -/
theorem set_bind {g : Pass → Pass} {f : Pass → Synthesis β}
    (hg : ∀ p : Pass, p.Leads (fun _ c c' => c' = c) (g p)) (hf : ∀ p, Edits id S (f p)) :
    Edits id S (do let p ← get; set (g p); f p) := by
  intro p b p'' hrun
  obtain ⟨_, _, hget, hrest⟩ := run_bind_eq_ok.1 hrun
  cases hget
  obtain ⟨_, _, hset, hlast⟩ := run_bind_eq_ok.1 hrest
  cases hset
  refine (hg p).trans (hf p _ b p'' hlast) ?_
  rintro i c c' c'' rfl hsecond
  exact hsecond

theorem forM {xs : List α} {g : α → Synthesis Unit} (hrefl : ∀ c, S c c)
    (htrans : ∀ c c' c'', S c c' → S c' c'' → S c c'') (hg : ∀ x ∈ xs, Edits id S (g x)) :
    Edits id S (xs.forM g) := by
  induction xs with
  | nil => exact (Quiet.pure ()).edits hrefl
  | cons x xs ih =>
    show Edits id S (g x >>= fun _ => xs.forM g)
    exact (hg x List.mem_cons_self).bind
      (fun _ => ih fun y hy => hg y (List.mem_cons_of_mem x hy)) htrans

theorem edit {g : Comment → Comment} (hS : ∀ c, S c (g c)) : Edits id S (Synthesis.edit id g) := by
  intro p a p' hrun
  cases hrun
  refine ⟨⟨[], (List.append_nil _).symm, fun _ hmem => absurd hmem List.not_mem_nil⟩, ?_, rfl, ?_, ?_⟩
  · intro hp
    show p.origins.length = (p.comments.modify id g).size
    rw [Collection.size_modify]
    exact hp
  · exact Nat.le_of_eq (Collection.size_modify _ _ _).symm
  · intro i hi
    show (i = id → S _ ((p.comments.modify id g).get i)) ∧
      (i ≠ id → (p.comments.modify id g).get i = _)
    rw [Collection.get_modify hi]
    constructor
    · intro hid
      rw [if_pos hid.symm]
      exact hS _
    · intro hid
      rw [if_neg (Ne.symm hid)]

end Edits

/-- Every entry has been changed in one way when the one that was changed was changed so. -/
theorem Edits.step (hm : Edits id S m) (hS : ∀ c, S c c) : Step (fun _ => S) m := by
  refine Step.mono hm ?_
  rintro i c c' ⟨hat, hoff⟩
  by_cases hi : i = id
  · exact hat hi
  · rw [hoff hi]
    exact hS c

theorem Touches.bind (hm : Touches id m) (hf : ∀ a, Touches id (f a)) : Touches id (m >>= f) :=
  Edits.bind hm hf fun _ _ _ _ _ => trivial

theorem Quiet.touches (hm : Quiet m) : Touches id m :=
  hm.edits fun _ => trivial

/-! ## Facts -/

/-- A step that names tags of the kinds `ks` in an entry that was hand-written as `h`, changes no
other entry, and after which the tags of `facts` are there. -/
def Builds (id : Nat) (h : Comment) (ks : List String) (facts : List (String × Option String))
    (m : Synthesis α) : Prop :=
  Edits id (fun c c' => Comment.Writes h ks c c' ∧ ∀ fact ∈ facts, c'.hasTag fact.1 fact.2 = true) m

theorem Quiet.builds (hm : Quiet m) : Builds id h ks [] m :=
  hm.edits fun c => ⟨.refl h ks c, fun _ hmem => absurd hmem List.not_mem_nil⟩

namespace Builds

variable {facts facts' : List (String × Option String)}

theorem pure (a : α) : Builds id h ks [] (Pure.pure a) :=
  (Quiet.pure a).builds

/-- Facts stay when what follows writes other kinds of tags. -/
theorem bind (hm : Builds id h ks facts m) (hf : ∀ a, Builds id h ls facts' (f a))
    (hkeep : ∀ fact ∈ facts, fact.1 ∉ ls) : Builds id h (ks ++ ls) (facts ++ facts') (m >>= f) := by
  refine Edits.bind hm hf ?_
  rintro c c' c'' ⟨hwrites, hfacts⟩ ⟨hwrites', hfacts'⟩
  refine ⟨hwrites.trans hwrites', ?_⟩
  intro fact hmem
  rcases List.mem_append.1 hmem with hmem | hmem
  · exact hwrites'.hasTag (hkeep fact hmem) (hfacts fact hmem)
  · exact hfacts' fact hmem

theorem mono (hm : Builds id h ks facts m) (hks : ks ⊆ ls) (hfacts : facts' ⊆ facts) :
    Builds id h ls facts' m :=
  Edits.mono hm fun _ _ hdoes => ⟨hdoes.1.mono hks, fun fact hmem => hdoes.2 fact (hfacts hmem)⟩

/-- Where no fact is claimed, steps that write the same kinds of tags follow each other freely. -/
theorem seq (hm : Builds id h ks [] m) (hf : ∀ a, Builds id h ks facts (f a)) :
    Builds id h ks facts (m >>= f) :=
  (hm.bind hf fun _ hmem => absurd hmem List.not_mem_nil).mono (by simp) (by simp)

theorem lift_bind {e : Except Error α} (hf : ∀ a, e = .ok a → Builds id h ks facts (f a)) :
    Builds id h ks facts (liftM e >>= f) :=
  Edits.lift_bind hf

theorem forM {xs : List α} {g : α → Synthesis Unit} (hg : ∀ x ∈ xs, Builds id h ks [] (g x)) :
    Builds id h ks [] (xs.forM g) := by
  induction xs with
  | nil => exact .pure ()
  | cons x xs ih =>
    show Builds id h ks [] (g x >>= fun _ => xs.forM g)
    exact (hg x List.mem_cons_self).seq fun _ => ih fun y hy => hg y (List.mem_cons_of_mem x hy)

theorem edit {g : Comment → Comment} (hwrites : ∀ c, Comment.Writes h ks c (g c)) :
    Builds id h ks [] (Synthesis.edit id g) :=
  Edits.edit fun c => ⟨hwrites c, fun _ hmem => absurd hmem List.not_mem_nil⟩

theorem touches (hm : Builds id h ks facts m) : Touches id m :=
  Edits.mono hm fun _ _ _ => trivial

end Builds

end Synthesis

end DocBlock
