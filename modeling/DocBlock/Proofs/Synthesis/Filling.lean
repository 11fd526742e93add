import DocBlock.Proofs.Comment.TagKinds
import DocBlock.Proofs.Decl.Hosts
import DocBlock.Proofs.Synthesis.Kinds

/-! # What is left behind when an entry is filled

Writing facts into an entry replaces the entry, appends entries for inline types, and does nothing else:
a run of a builder ends in `(p.fill id c).link links names` (`Fills`). The entries that are appended are
those of the inline types in the types that have been named (`Tree.Links`), so the book of named types
says which entries of inline types there are. -/

namespace DocBlock

/-! ## Entries of inline types -/

namespace Tree

variable {t : Tree} {table : SymbolTable} {node inline : NodeId} {c c' : Comment}
  {first first' : List EntryOrigin} {links links' : List (EntryOrigin × Comment)}
  {names names' : List NodeId}

/-- The tag that says what an inline type is. -/
def inlineTag (t : Tree) (inline : NodeId) (name : String) : Tag :=
  if (t.decl inline).isFunctionType then { kind := "callback", name := some name }
  else { kind := "typedef", name := some name, type := some "Object" }

theorem kind_inlineTag (t : Tree) (inline : NodeId) (name : String) :
    (t.inlineTag inline name).kind = "callback" ∨ (t.inlineTag inline name).kind = "typedef" := by
  rw [inlineTag]
  split
  · exact .inl rfl
  · exact .inr rfl

/-- What the entry of an inline type says: the one tag of its kind has the anonymous name of the
declaration, and a `memberof` tag is there just when the declaration has an owner. -/
def LinkedEntry (t : Tree) (node inline : NodeId) (c : Comment) : Prop :=
  ∃ name owner, t.anonymousName node = .ok name ∧ t.ownerName node = .ok owner ∧
    c.tagsOf (t.inlineTag inline name).kind = [t.inlineTag inline name] ∧
    c.tagsOf "memberof" = owner.toList.map fun o => { kind := "memberof", name := some o }

theorem LinkedEntry.spares (h : t.LinkedEntry node inline c) (hs : Comment.Spares ["property"] c c') :
    t.LinkedEntry node inline c' := by
  obtain ⟨name, owner, hname, howner, htag, hmember⟩ := h
  refine ⟨name, owner, hname, howner, ?_, ?_⟩
  · rw [hs _ ?_, htag]
    rcases t.kind_inlineTag inline name with hkind | hkind <;> rw [hkind] <;> decide
  · rw [hs "memberof" (by decide), hmember]

/-- The origins of the entries that the type of a declaration asks for. -/
def inlineOrigins (t : Tree) (table : SymbolTable) (node : NodeId) : List EntryOrigin :=
  match t.resolveTypeName table node (t.decl node).annotation? (t.typeOf? table node) with
  | .ok result => result.anonymous.map (.inline node)
  | .error _ => []

/-- The type of a declaration can be named. -/
def HasTypeName (t : Tree) (table : SymbolTable) (node : NodeId) : Prop :=
  ∃ result, t.resolveTypeName table node (t.decl node).annotation? (t.typeOf? table node) = .ok result

/-- New entries `links` that are those of `first` and of the inline types in the types of `names`. -/
structure Links (t : Tree) (table : SymbolTable) (first : List EntryOrigin)
    (links : List (EntryOrigin × Comment)) (names : List NodeId) : Prop where
  resolved : ∀ node ∈ names, t.HasTypeName table node
  origins : (links.map Prod.fst).Perm (first ++ names.flatMap (t.inlineOrigins table))
  entries : ∀ link ∈ links, ∃ node inline, link.1 = .inline node inline ∧
    t.LinkedEntry node inline link.2

theorem links_nil (t : Tree) (table : SymbolTable) : t.Links table [] [] [] :=
  ⟨fun _ hnode => absurd hnode List.not_mem_nil, .refl _, fun _ hlink => absurd hlink List.not_mem_nil⟩

theorem Links.append (h : t.Links table first links names) (h' : t.Links table first' links' names') :
    t.Links table (first ++ first') (links ++ links') (names ++ names') where
  resolved node hnode := by
    rcases List.mem_append.1 hnode with hnode | hnode
    · exact h.resolved node hnode
    · exact h'.resolved node hnode
  origins := by
    rw [List.map_append, List.flatMap_append]
    refine (h.origins.append h'.origins).trans ?_
    rw [List.append_assoc, List.append_assoc]
    refine List.Perm.append_left first ?_
    rw [← List.append_assoc, ← List.append_assoc]
    exact List.Perm.append_right _ List.perm_append_comm
  entries link hlink := by
    rcases List.mem_append.1 hlink with hlink | hlink
    · exact h.entries link hlink
    · exact h'.entries link hlink

theorem Links.eq_nil (h : t.Links table [] links []) : links = [] := by
  have hnil := h.origins.eq_nil
  exact List.map_eq_nil_iff.1 hnil

/-- The nodes of the inline types written on a declaration. -/
def inlines (t : Tree) (node : NodeId) : List NodeId :=
  ((t.decl node).annotation?.map TypeExpr.inlineNodes).getD []

/-- The types that are named for the type of a declaration: its own, and those of the parameters and
results of function types in it. -/
def Typed (t : Tree) (node : NodeId) (names : List NodeId) : Prop :=
  ∃ rest, names = node :: rest ∧ t.Under (t.host? node) (t.inlines node) rest

end Tree

/-! ## Passes with more entries -/

namespace Pass

variable {p : Pass} {id i : Nat} {c c' : Comment} {links links' : List (EntryOrigin × Comment)}
  {names names' : List NodeId}

/-- The pass with further entries, and with further types named. -/
def link (p : Pass) (links : List (EntryOrigin × Comment)) (names : List NodeId) : Pass :=
  { p with
    comments := { p.comments with entries := p.comments.entries ++ links.map Prod.snd }
    origins := p.origins ++ links.map Prod.fst
    named := p.named ++ names }

/-- The pass with another comment in the place of an entry. -/
def fill (p : Pass) (id : Nat) (c : Comment) : Pass :=
  { p with comments := { p.comments with entries := p.comments.entries.set id c } }

@[simp] theorem link_nil (p : Pass) : p.link [] [] = p := by
  simp [link]

theorem link_link (p : Pass) (links links' : List (EntryOrigin × Comment))
    (names names' : List NodeId) :
    (p.link links names).link links' names' = p.link (links ++ links') (names ++ names') := by
  simp [link]

@[simp] theorem fill_fill (p : Pass) (id : Nat) (c c' : Comment) :
    (p.fill id c).fill id c' = p.fill id c' := by
  simp [fill]

theorem fill_link (hid : id < p.comments.size) (c : Comment) :
    (p.link links names).fill id c = (p.fill id c).link links names := by
  simp only [fill, link]
  rw [List.set_append_left id c hid]

theorem get_of_lt {cs : Collection} (hi : i < cs.size) :
    cs.entries[i]? = some (cs.get i) := by
  rw [Collection.get, List.getD_eq_getElem?_getD, List.getElem?_eq_getElem hi]
  rfl

theorem fill_get (hid : id < p.comments.size) : p.fill id (p.comments.get id) = p := by
  obtain ⟨hlt, hget⟩ := List.getElem?_eq_some_iff.1 (get_of_lt hid)
  simp only [fill, ← hget, List.set_getElem_self]

@[simp] theorem size_fill (p : Pass) (id : Nat) (c : Comment) :
    (p.fill id c).comments.size = p.comments.size :=
  List.length_set

@[simp] theorem size_link (p : Pass) (links : List (EntryOrigin × Comment)) (names : List NodeId) :
    (p.link links names).comments.size = p.comments.size + links.length := by
  simp [link, Collection.size]

theorem get_link_of_lt (hi : i < p.comments.size) :
    (p.link links names).comments.get i = p.comments.get i := by
  simp only [Collection.get, link, List.getD_eq_getElem?_getD]
  rw [List.getElem?_append_left hi]

theorem get_fill_self (hid : id < p.comments.size) (c : Comment) :
    (p.fill id c).comments.get id = c := by
  simp only [Collection.get, fill, List.getD_eq_getElem?_getD]
  rw [List.getElem?_set_self hid]
  rfl

theorem get_fill_of_ne (hi : id ≠ i) (c : Comment) :
    (p.fill id c).comments.get i = p.comments.get i := by
  simp only [Collection.get, fill, List.getD_eq_getElem?_getD]
  rw [List.getElem?_set_ne hi]

/-- Changing an entry puts another comment in its place. -/
theorem modify_eq_fill (hid : id < p.comments.size) (g : Comment → Comment) :
    { p with comments := p.comments.modify id g } = p.fill id (g (p.comments.get id)) := by
  simp only [Collection.modify, fill]
  rw [List.modify_eq_set_getElem?, get_of_lt hid]
  rfl

theorem get_new (p : Pass) (origin : EntryOrigin) (c : Comment) (links : List (EntryOrigin × Comment))
    (names : List NodeId) :
    (p.link ((origin, c) :: links) names).comments.get p.comments.size = c := by
  simp [Collection.get, link, Collection.size, List.getD_eq_getElem?_getD]

/-- A new entry that is filled. -/
theorem fill_new (p : Pass) (origin : EntryOrigin) (c c' : Comment)
    (links : List (EntryOrigin × Comment)) (names : List NodeId) :
    (p.link ((origin, c) :: links) names).fill p.comments.size c' =
      p.link ((origin, c') :: links) names := by
  simp [link, fill, Collection.size]

theorem lt_size_new (p : Pass) (origin : EntryOrigin) (c : Comment)
    (links : List (EntryOrigin × Comment)) (names : List NodeId) :
    p.comments.size < (p.link ((origin, c) :: links) names).comments.size := by
  rw [size_link, List.length_cons]
  omega

end Pass

/-! ## Steps that name types, and steps that fill an entry -/

namespace Synthesis

open Comment (Spares)

variable {α β : Type} {t : Tree} {table : SymbolTable} {id : Nat} {m : Synthesis α}
  {f : α → Synthesis β} {S T U : Comment → Comment → Prop} {L L' L'' : List NodeId → Prop}
  {ks ls : List String} {first first' : List EntryOrigin} {node inline : NodeId}

theorem run_newEntry {origin : EntryOrigin} {c : Comment} {p p' : Pass}
    (hrun : (newEntry origin c).run p = .ok (id, p')) :
    id = p.comments.size ∧ p' = p.link [(origin, c)] [] := by
  cases hrun
  refine ⟨rfl, ?_⟩
  simp [Pass.link, Collection.push]

/-- A step that makes entries for inline types and does nothing else. -/
def Names (t : Tree) (table : SymbolTable) (first : List EntryOrigin) (L : List NodeId → Prop)
    (m : Synthesis α) : Prop :=
  ∀ p a p', m.run p = .ok (a, p') →
    ∃ links names, t.Links table first links names ∧ L names ∧ p' = p.link links names

/-- A step that changes one entry as `S` says and makes entries for inline types. -/
def Fills (t : Tree) (table : SymbolTable) (id : Nat) (S : Comment → Comment → Prop)
    (L : List NodeId → Prop) (m : Synthesis α) : Prop :=
  ∀ p a p', id < p.comments.size → m.run p = .ok (a, p') →
    ∃ c links names, S (p.comments.get id) c ∧ t.Links table [] links names ∧ L names ∧
      p' = (p.fill id c).link links names

/-- No type is named. -/
def Unnamed (names : List NodeId) : Prop :=
  names = []

theorem unnamed_nil : Unnamed [] :=
  rfl

theorem Unnamed.append {names names' : List NodeId} (h : Unnamed names) (h' : L names') :
    L (names ++ names') := by
  rw [h, List.nil_append]
  exact h'

theorem append_unnamed {names names' : List NodeId} (h : L names) (h' : Unnamed names') :
    L (names ++ names') := by
  rw [h', List.append_nil]
  exact h

namespace Names

theorem pure (hL : L []) (a : α) : Names t table [] L (Pure.pure a) := by
  intro p a' p' hrun
  cases hrun
  exact ⟨[], [], t.links_nil table, hL, (Pass.link_nil p).symm⟩

theorem bind (hm : Names t table first L m) (hf : ∀ a, Names t table first' L' (f a))
    (hL : ∀ names names', L names → L' names' → L'' (names ++ names')) :
    Names t table (first ++ first') L'' (m >>= f) := by
  intro p b p'' hrun
  obtain ⟨a, p', hfirst, hsecond⟩ := run_bind_eq_ok.1 hrun
  obtain ⟨links, names, hlinks, hnames, rfl⟩ := hm p a p' hfirst
  obtain ⟨links', names', hlinks', hnames', rfl⟩ := hf a _ b p'' hsecond
  exact ⟨_, _, hlinks.append hlinks', hL _ _ hnames hnames', Pass.link_link p _ _ _ _⟩

theorem mono (hm : Names t table first L m) (hL : ∀ names, L names → L' names) :
    Names t table first L' m := by
  intro p a p' hrun
  obtain ⟨links, names, hlinks, hnames, hp'⟩ := hm p a p' hrun
  exact ⟨links, names, hlinks, hL names hnames, hp'⟩

theorem lift_bind {e : Except Error α} (hf : ∀ a, e = .ok a → Names t table first L (f a)) :
    Names t table first L (liftM e >>= f) := by
  intro p b p'' hrun
  obtain ⟨a, p', hlift, hrest⟩ := run_bind_eq_ok.1 hrun
  obtain ⟨ha, rfl⟩ := run_lift_eq_ok.1 hlift
  exact hf a ha _ b p'' hrest

theorem map {g : α → β} (hm : Names t table first L m) : Names t table first L (g <$> m) := by
  rw [map_eq_pure_bind]
  intro p b p'' hrun
  obtain ⟨a, p', hfirst, hlast⟩ := run_bind_eq_ok.1 hrun
  cases hlast
  exact hm p a p'' hfirst

/-- A new entry that is filled for an inline type. -/
theorem newEntry_bind {body : Nat → Synthesis β}
    (hbody : ∀ id, Fills t table id
      (fun c c' => c = Comment.empty → t.LinkedEntry node inline c') L (body id)) :
    Names t table [.inline node inline] L
      (newEntry (.inline node inline) Comment.empty >>= body) := by
  intro p b p'' hrun
  obtain ⟨id, p', hnew, hrest⟩ := run_bind_eq_ok.1 hrun
  obtain ⟨rfl, rfl⟩ := run_newEntry hnew
  obtain ⟨c, links, names, hentry, hlinks, hnames, rfl⟩ :=
    hbody _ _ b p'' (p.lt_size_new _ _ _ _) hrest
  have hempty := p.get_new (.inline node inline) Comment.empty [] []
  refine ⟨(.inline node inline, c) :: links, names, ⟨hlinks.resolved, hlinks.origins.cons _, ?_⟩, hnames, ?_⟩
  · intro link hlink
    rcases List.mem_cons.1 hlink with rfl | hlink
    · exact ⟨node, inline, rfl, hentry hempty⟩
    · exact hlinks.entries link hlink
  · rw [Pass.fill_new, Pass.link_link]
    rfl

end Names

namespace Fills

theorem pure (hS : ∀ c, S c c) (hL : L []) (a : α) : Fills t table id S L (Pure.pure a) := by
  intro p a' p' hid hrun
  cases hrun
  refine ⟨p.comments.get id, [], [], hS _, t.links_nil table, hL, ?_⟩
  rw [Pass.fill_get hid, Pass.link_nil]

theorem edit {g : Comment → Comment} (hg : ∀ c, S c (g c)) (hL : L []) :
    Fills t table id S L (Synthesis.edit id g) := by
  intro p a p' hid hrun
  cases hrun
  refine ⟨g (p.comments.get id), [], [], hg _, t.links_nil table, hL, ?_⟩
  rw [Pass.link_nil]
  exact Pass.modify_eq_fill hid g

theorem bind (hm : Fills t table id S L m) (hf : ∀ a, Fills t table id T L' (f a))
    (hU : ∀ c c' c'', S c c' → T c' c'' → U c c'')
    (hL : ∀ names names', L names → L' names' → L'' (names ++ names')) :
    Fills t table id U L'' (m >>= f) := by
  intro p b p'' hid hrun
  obtain ⟨a, p', hfirst, hsecond⟩ := run_bind_eq_ok.1 hrun
  obtain ⟨c, links, names, hS, hlinks, hnames, rfl⟩ := hm p a p' hid hfirst
  have hid' : id < (p.fill id c).comments.size := by
    rw [Pass.size_fill]
    exact hid
  obtain ⟨c', links', names', hT, hlinks', hnames', rfl⟩ :=
    hf a _ b p'' (by rw [Pass.size_link]; omega) hsecond
  rw [Pass.get_link_of_lt hid', Pass.get_fill_self hid] at hT
  refine ⟨c', _, _, hU _ _ _ hS hT, hlinks.append hlinks', hL _ _ hnames hnames', ?_⟩
  rw [Pass.fill_link hid', Pass.fill_fill, Pass.link_link]

theorem mono (hm : Fills t table id S L m) (hT : ∀ c c', S c c' → T c c')
    (hL : ∀ names, L names → L' names) : Fills t table id T L' m := by
  intro p a p' hid hrun
  obtain ⟨c, links, names, hS, hlinks, hnames, hp'⟩ := hm p a p' hid hrun
  exact ⟨c, links, names, hT _ _ hS, hlinks, hL names hnames, hp'⟩

theorem named (hm : Fills t table id S L m) (hL : ∀ names, L names → L' names) :
    Fills t table id S L' m :=
  hm.mono (fun _ _ hS => hS) hL

theorem kinds (hm : Fills t table id (Spares ks) L m) (hks : ks ⊆ ls) :
    Fills t table id (Spares ls) L m :=
  hm.mono (fun _ _ hspares => hspares.mono hks) fun _ hnames => hnames

/-- What names no type may come before anything else. -/
theorem unnamed_bind (hm : Fills t table id (Spares ks) Unnamed m)
    (hf : ∀ a, Fills t table id (Spares ls) L (f a)) :
    Fills t table id (Spares (ks ++ ls)) L (m >>= f) := by
  exact hm.bind hf (fun _ _ _ h h' => h.trans h') fun _ _ h h' => h.append h'

/-- What names no type may follow anything else. -/
theorem bind_unnamed (hm : Fills t table id (Spares ks) L m)
    (hf : ∀ a, Fills t table id (Spares ls) Unnamed (f a)) :
    Fills t table id (Spares (ks ++ ls)) L (m >>= f) := by
  exact hm.bind hf (fun _ _ _ h h' => h.trans h') fun _ _ h h' => append_unnamed h h'

theorem lift_bind {e : Except Error α} (hf : ∀ a, e = .ok a → Fills t table id S L (f a)) :
    Fills t table id S L (liftM e >>= f) := by
  intro p b p'' hid hrun
  obtain ⟨a, p', hlift, hrest⟩ := run_bind_eq_ok.1 hrun
  obtain ⟨ha, rfl⟩ := run_lift_eq_ok.1 hlift
  exact hf a ha _ b p'' hid hrest

/-- Naming types in front does not change the entry. -/
theorem names_bind (hm : Names t table [] L m) (hf : ∀ a, Fills t table id S Unnamed (f a)) :
    Fills t table id S L (m >>= f) := by
  have hfills : Fills t table id Eq L m := by
    intro p a p' hid hrun
    obtain ⟨links, names, hlinks, hnames, rfl⟩ := hm p a p' hrun
    refine ⟨p.comments.get id, links, names, rfl, hlinks, hnames, ?_⟩
    rw [Pass.fill_get hid]
  refine hfills.bind hf ?_ fun _ _ h h' => append_unnamed h h'
  rintro c _ c'' rfl hS
  exact hS

theorem forM {xs : List α} {g : α → Synthesis Unit}
    (hg : ∀ x ∈ xs, Fills t table id (Spares ks) Unnamed (g x)) :
    Fills t table id (Spares ks) Unnamed (xs.forM g) := by
  induction xs with
  | nil => exact .pure (.refl ks) unnamed_nil ()
  | cons x xs ih =>
    show Fills t table id (Spares ks) Unnamed (g x >>= fun _ => xs.forM g)
    have hrest := ih fun y hy => hg y (List.mem_cons_of_mem x hy)
    exact ((hg x List.mem_cons_self).unnamed_bind fun _ => hrest).kinds (by simp)

/-- Filling an entry that is new. -/
theorem run_new {p p' : Pass} {origin : EntryOrigin} {c : Comment}
    {links : List (EntryOrigin × Comment)} {names : List NodeId} {a : α} (hid : id = p.comments.size)
    (hrun : m.run (p.link ((origin, c) :: links) names) = .ok (a, p')) (hm : Fills t table id S L m) :
    ∃ c' links' names', S c c' ∧ t.Links table [] links' names' ∧ L names' ∧
      p' = p.link ((origin, c') :: (links ++ links')) (names ++ names') := by
  rw [hid] at hm
  obtain ⟨c', links', names', hS, hlinks, hnames, rfl⟩ := hm _ a p' (p.lt_size_new _ _ _ _) hrun
  rw [Pass.get_new] at hS
  refine ⟨c', links', names', hS, hlinks, hnames, ?_⟩
  rw [Pass.fill_new, Pass.link_link, List.cons_append]

end Fills

end Synthesis

end DocBlock
