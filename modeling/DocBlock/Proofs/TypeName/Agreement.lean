import DocBlock.Proofs.Comment.Fitting
import DocBlock.Proofs.Error
import DocBlock.Proofs.TypeName.Translation
import DocBlock.Program
import DocBlock.TypeName.Resolve

/-! # Resolving and formatting agree

An annotation is resolved from its leaves: each array and each list of arguments is put around names that
are formatted already, and formatted again. Formatting the source spelling of the whole annotation at once
gives the same name (`resolveTypeName_eq_format`), as long as no reference is resolved to another name.
The annotation is the spelling of a derivation (`Spells`), and a derivation whose parts stand in their
documentation spelling has the documentation spelling of the derivation itself. -/

namespace DocBlock

namespace Text

theorem toList_joinStrings_ofList (sep : String) (pieces : List (List Char)) :
    (joinStrings sep (pieces.map String.ofList)).toList = join sep.toList pieces := by
  rw [toList_joinStrings, List.map_map]
  congr 1
  exact List.map_id'' (fun piece => String.toList_ofList) pieces

theorem joinStrings_ofList (sep : String) (pieces : List (List Char)) :
    joinStrings sep (pieces.map String.ofList) = String.ofList (join sep.toList pieces) := by
  rw [← toList_joinStrings_ofList, String.ofList_toList]

end Text

namespace TypeName.Derivation

variable {w : List Char}

/-! ## Formatting around formatted names -/

theorem bracketPairs_succ (n : Nat) :
    bracketPairs (n + 1) = bracketPairs n ++ [.mark '[', .mark ']'] := by
  induction n with
  | zero => rfl
  | succ n ih =>
    conv_lhs => rw [bracketPairs, ih]
    rfl

theorem tokens_array (element : Derivation .arrayed) :
    element.array.tokens = element.tokens ++ [.mark '[', .mark ']'] := by
  cases element with
  | arrayed primary n => rw [array, tokens, tokens, bracketPairs_succ, List.append_assoc]

theorem spelling_array (element : Derivation .arrayed) :
    element.array.spelling = element.spelling ++ "[]".toList := by
  rw [spelling, tokens_array, spellingOf_append]
  rfl

theorem Each.array {bare applied : List Char → Prop} {element : Derivation .arrayed}
    (h : element.Each bare applied fun _ => True) : element.array.Each bare applied fun _ => True := by
  cases element with
  | arrayed primary n => exact ⟨h.1, trivial⟩

theorem repeated_array {element : Derivation .arrayed} :
    Repeated element.array.tokens ↔ Repeated element.tokens := by
  rw [tokens_array, repeated_append (tokens_arrayed_ne_nil element)]

theorem Proper.elementDoc_documented {element : Derivation .arrayed} (h : element.Proper) :
    element.documented.elementDoc = element.elementDoc := by
  cases element with
  | arrayed primary n =>
    cases n with
    | zero =>
      cases primary with
      | parens inner =>
        have hinner : inner.Proper := h.1
        exact hinner.doc_documented
      | name text => exact h.doc_documented
      | applied text first others => exact h.doc_documented
    | succ n => cases primary <;> exact h.doc_documented

/-- An array of a formatted name is formatted as the array of the type itself. -/
theorem Clean.formatChars_array {element : Derivation .arrayed} (h : element.Clean) :
    formatChars (element.doc ++ "[]".toList) = element.array.doc := by
  have hproper := h.proper
  have harray : (union element.documented.array noMember).Proper :=
    ⟨Each.array hproper.documented, trivial⟩
  have hnames : (union element.documented.array noMember).Unqueried :=
    ⟨Each.array h.unqueried.documented, trivial⟩
  have htokens : TypeName.tokens (element.doc ++ "[]".toList) =
      (union element.documented.array noMember).tokens := by
    rw [← harray.tokens_spelling, spelling, tokens, tokens, List.append_nil, ← spelling,
      spelling_array, hproper.doc_eq_spelling_documented]
  have hrepeated : ¬ Repeated (union element.documented.array noMember).tokens := by
    rw [tokens, tokens, List.append_nil, repeated_array]
    exact fun hmarked => h.not_repeated (repeated_of_documented hmarked)
  rw [harray.formatChars_eq hnames hrepeated htokens, doc, doc, List.append_nil, doc_array, doc_array,
    hproper.elementDoc_documented]

/-- A name with formatted arguments is formatted as the name with the arguments themselves. -/
theorem Clean.formatChars_applied {first : Derivation .union} {others : Derivation .arguments}
    (h : (Derivation.applied w first others).Clean) :
    formatChars (w ++ "<".toList ++ (first.doc ++ others.doc) ++ ">".toList) =
      (Derivation.applied w first others).doc := by
  have hname : CleanName w := h w List.mem_cons_self
  obtain ⟨hw, hfirst, hothers⟩ : IsName w ∧ first.Proper ∧ others.Proper := h.proper
  have hunqueried := h.unqueried
  let inside : Derivation .primary := .applied w first.documented others.documented
  have happlied : (alone inside).Proper :=
    ⟨⟨⟨hw, hfirst.documented, hothers.documented⟩, trivial⟩, trivial⟩
  have hnames : (alone inside).Unqueried :=
    ⟨⟨⟨hunqueried.1, Unqueried.documented hunqueried.2.1, Unqueried.documented hunqueried.2.2⟩,
      trivial⟩, trivial⟩
  have htokens : TypeName.tokens (w ++ "<".toList ++ (first.doc ++ others.doc) ++ ">".toList) =
      (alone inside).tokens := by
    rw [← happlied.tokens_spelling, hfirst.doc_eq_spelling_documented,
      hothers.doc_eq_spelling_documented]
    simp [alone, inside, spelling, tokens, bracketPairs, Token.spelling]
  have hrepeated : ¬ Repeated (alone inside).tokens := by
    rintro ⟨text, hfirst, hmarker⟩
    cases hfirst
    exact hname.unmarked hmarker
  rw [happlied.formatChars_eq hnames hrepeated htokens, doc_alone, doc, doc, hfirst.doc_documented,
    hothers.doc_documented]

/-! ## Unions and arguments of several types -/

/-- A name without arguments. -/
def named (w : List Char) : Derivation .union :=
  alone (.name w)

theorem spelling_named (w : List Char) : (named w).spelling = w :=
  List.append_nil w

theorem doc_named (h : CleanName w) : (named w).doc = w := by
  rw [named, doc_alone, doc, dropDot_of_undotted h.undotted]

theorem Clean.named (h : CleanName w) : (named w).Clean := by
  intro text htext
  obtain rfl : text = w := by
    simpa [Derivation.named, alone, tokens, bracketPairs] using htext
  exact h

/-- The members of two lists, one behind the other. -/
def append : Derivation .members → Derivation .members → Derivation .members
  | .noMember, more => more
  | .member next others, more => .member next (others.append more)

theorem tokens_append_members (others more : Derivation .members) :
    (others.append more).tokens = others.tokens ++ more.tokens := by
  fun_induction append others more with
  | case1 more => rfl
  | case2 next others more ih => rw [tokens, ih, tokens, List.cons_append, List.append_assoc]

theorem doc_append_members (others more : Derivation .members) :
    (others.append more).doc = others.doc ++ more.doc := by
  fun_induction append others more with
  | case1 more => rfl
  | case2 next others more ih => simp only [doc, ih, List.append_assoc]

/-- A type behind other members of a union: its own members one by one. -/
def asMembers : Derivation .union → Derivation .members
  | .union first others => .member first others

theorem tokens_asMembers (d : Derivation .union) : d.asMembers.tokens = .mark '|' :: d.tokens := by
  cases d with
  | union first others => rw [asMembers, tokens, tokens]

theorem doc_asMembers (d : Derivation .union) : d.asMembers.doc = " | ".toList ++ d.doc := by
  cases d with
  | union first others => rw [asMembers, doc, doc, List.append_assoc]

/-- The union of some types. -/
def unite : Derivation .union → List (Derivation .union) → Derivation .union
  | d, [] => d
  | .union first others, d :: ds => .union first (others.append (unite d ds).asMembers)

theorem tokens_unite_cons (d e : Derivation .union) (ds : List (Derivation .union)) :
    (unite d (e :: ds)).tokens = d.tokens ++ .mark '|' :: (unite e ds).tokens := by
  cases d with
  | union first others =>
    rw [unite, tokens, tokens_append_members, tokens_asMembers, tokens, List.append_assoc]

theorem spelling_unite (d : Derivation .union) (ds : List (Derivation .union)) :
    (unite d ds).spelling = Text.join " | ".toList ((d :: ds).map spelling) := by
  induction ds generalizing d with
  | nil => cases d; rfl
  | cons e ds ih =>
    have hjoin := Text.join_cons_of_ne_nil " | ".toList d.spelling
      (List.cons_ne_nil e.spelling (ds.map spelling))
    rw [List.map_cons, List.map_cons, hjoin, ← List.map_cons, ← ih, spelling, tokens_unite_cons,
      spellingOf_append, spellingOf_cons, List.append_assoc]
    rfl

theorem doc_unite (d : Derivation .union) (ds : List (Derivation .union)) :
    (unite d ds).doc = Text.join " | ".toList ((d :: ds).map doc) := by
  induction ds generalizing d with
  | nil => cases d; rfl
  | cons e ds ih =>
    have hjoin := Text.join_cons_of_ne_nil " | ".toList d.doc
      (List.cons_ne_nil e.doc (ds.map doc))
    rw [List.map_cons, List.map_cons, hjoin, ← List.map_cons, ← ih]
    cases d with
    | union first others =>
      rw [unite, doc, doc_append_members, doc_asMembers, doc]
      simp only [List.append_assoc]

theorem Clean.unite {d : Derivation .union} {ds : List (Derivation .union)} (h : d.Clean)
    (hs : ∀ e ∈ ds, e.Clean) : (unite d ds).Clean := by
  induction ds generalizing d with
  | nil => cases d; exact h
  | cons e ds ih =>
    have hrest := ih (hs e List.mem_cons_self) fun f hf => hs f (List.mem_cons_of_mem e hf)
    intro text htext
    rw [tokens_unite_cons] at htext
    rcases List.mem_append.1 htext with htext | htext
    · exact h text htext
    · exact hrest text (by simpa using htext)

/-- Some types as the arguments behind the first one. -/
def argumentsOf : List (Derivation .union) → Derivation .arguments
  | [] => .noArgument
  | d :: ds => .argument d (argumentsOf ds)

theorem spelling_argumentsOf (ds : List (Derivation .union)) :
    (argumentsOf ds).spelling = (ds.map spelling).flatMap (", ".toList ++ ·) := by
  induction ds with
  | nil => rfl
  | cons d ds ih =>
    rw [List.map_cons, List.flatMap_cons, ← ih, argumentsOf, spelling, tokens, spellingOf_cons,
      spellingOf_append, List.append_assoc]
    rfl

theorem doc_argumentsOf (ds : List (Derivation .union)) :
    (argumentsOf ds).doc = (ds.map doc).flatMap (", ".toList ++ ·) := by
  induction ds with
  | nil => rfl
  | cons d ds ih => rw [List.map_cons, List.flatMap_cons, ← ih, argumentsOf, doc]

/-- A name with some types as its arguments. -/
def appliedTo (w : List Char) (d : Derivation .union) (ds : List (Derivation .union)) :
    Derivation .union :=
  alone (.applied w d (argumentsOf ds))

theorem spelling_appliedTo (w : List Char) (d : Derivation .union) (ds : List (Derivation .union)) :
    (appliedTo w d ds).spelling =
      w ++ "<".toList ++ Text.join ", ".toList ((d :: ds).map spelling) ++ ">".toList := by
  rw [List.map_cons, Text.join_eq_append_flatMap, ← spelling_argumentsOf]
  simp [appliedTo, alone, spelling, tokens, bracketPairs, Token.spelling]

theorem Clean.appliedTo {d : Derivation .union} {ds : List (Derivation .union)} (hw : CleanName w)
    (h : d.Clean) (hs : ∀ e ∈ ds, e.Clean) : (appliedTo w d ds).Clean := by
  have harguments : (argumentsOf ds).Clean := by
    induction ds with
    | nil => exact fun text htext => absurd htext List.not_mem_nil
    | cons e ds ih =>
      have hrest := ih fun f hf => hs f (List.mem_cons_of_mem e hf)
      intro text htext
      simp only [argumentsOf, tokens, List.mem_cons, List.mem_append, reduceCtorEq, false_or] at htext
      exact htext.elim (hs e List.mem_cons_self text) (hrest text)
  intro text htext
  simp only [Derivation.appliedTo, alone, tokens, bracketPairs, List.append_nil, List.mem_cons,
    List.mem_append, Token.name.injEq, reduceCtorEq, false_or, List.not_mem_nil, or_false] at htext
  rcases htext with rfl | htext | htext
  · exact hw
  · exact h text htext
  · exact harguments text htext

theorem Clean.formatChars_appliedTo {d : Derivation .union} {ds : List (Derivation .union)}
    (h : (Derivation.appliedTo w d ds).Clean) :
    formatChars (w ++ "<".toList ++ Text.join ", ".toList ((d :: ds).map doc) ++ ">".toList) =
      (Derivation.appliedTo w d ds).doc := by
  have happlied : (Derivation.applied w d (argumentsOf ds)).Clean := by
    intro text htext
    exact h text (by simpa [Derivation.appliedTo, alone, tokens, bracketPairs] using htext)
  rw [List.map_cons, Text.join_eq_append_flatMap, ← doc_argumentsOf, happlied.formatChars_applied,
    Derivation.appliedTo, doc_alone]

end TypeName.Derivation

open DocBlock.TypeName (CleanName Derivation formatChars)

/-! ## Annotations -/

namespace TypeExpr

mutual

/-- Whether an annotation is made of keywords, references, arrays and unions of at least one member,
with keywords and names of references as required. -/
def MadeOf (keyword reference : String → Prop) : TypeExpr → Prop
  | .intrinsic text => keyword text
  | .reference name args => reference name ∧ AllMadeOf keyword reference args
  | .array element => MadeOf keyword reference element
  | .union members => members ≠ [] ∧ AllMadeOf keyword reference members
  | .query _ => False
  | .object _ => False
  | .function _ => False
  | .other _ => False

/-- Whether several annotations are. -/
def AllMadeOf (keyword reference : String → Prop) : List TypeExpr → Prop
  | [] => True
  | type :: types => MadeOf keyword reference type ∧ AllMadeOf keyword reference types

end

/-- Whether an annotation is the spelling of a derivation of clean names. -/
structure Spells (type : TypeExpr) (d : Derivation .union) : Prop where
  clean : d.Clean
  text : type.text.toList = d.spelling
  /-- Only a union has more than one member. -/
  single : type.isUnion = false → ∃ element, d = .union element .noMember

end TypeExpr

namespace Tree

variable {t : Tree} {table : SymbolTable} {owner : NodeId}

/-- What resolving a type gives: its documentation spelling and no inline types. -/
def resolved (d : Derivation .union) : TypeNameResult :=
  { name := String.ofList d.doc }

theorem names_resolved (ds : List (Derivation .union)) :
    (ds.map resolved).map (·.name) = (ds.map Derivation.doc).map String.ofList := by
  rw [List.map_map, List.map_map]
  rfl

theorem anonymous_resolved (ds : List (Derivation .union)) :
    (ds.map resolved).flatMap (·.anonymous) = [] := by
  rw [List.flatMap_eq_nil_iff]
  rintro _ hresult
  obtain ⟨d, -, rfl⟩ := List.mem_map.1 hresult
  rfl

/-- A reference that is not resolved to another name stands for itself. -/
theorem resolveExpr_unresolved {name : String} (hparams : (t.decl owner).typeParams = [])
    (hparam : t.isTypeParameter owner name = false) (hsymbol : table.resolve? t owner name = none)
    {args : List TypeExpr} {ds : List (Derivation .union)}
    (hargs : t.resolveExprs table owner args = .ok (ds.map resolved)) :
    t.resolveExpr table owner (.reference name args) = .ok
      { name := TypeName.format (name ++ angled ((ds.map Derivation.doc).map String.ofList)) } := by
  have hwritten : (if args.isEmpty then (t.decl owner).typeParams
      else (ds.map resolved).map (·.name)) = (ds.map Derivation.doc).map String.ofList := by
    cases args with
    | nil =>
      -- A bare name is written with the type parameters of the owner, of which there are none.
      rw [resolveExprs] at hargs
      have hnone : ds = [] := List.map_eq_nil_iff.1 (Except.ok.inj hargs).symm
      rw [hnone, hparams]
      rfl
    | cons arg args => exact names_resolved ds
  rw [resolveExpr, hparam, hargs, hsymbol]
  change Except.ok _ = Except.ok _
  rw [hwritten, anonymous_resolved]
  rfl

/-- Whether a reference on a declaration is written with its own name: a clean name that is no type
parameter in scope and does not reach a symbol. -/
def Verbatim (t : Tree) (table : SymbolTable) (owner : NodeId) (name : String) : Prop :=
  CleanName name.toList ∧ t.isTypeParameter owner name = false ∧ table.resolve? t owner name = none

instance (name : String) : Decidable (t.Verbatim table owner name) :=
  inferInstanceAs (Decidable (_ ∧ _ ∧ _))

/-- The name that an array is formatted from. -/
theorem exists_element {element : TypeExpr} {d : Derivation .union} (h : element.Spells d) :
    ∃ e : Derivation .arrayed, e.Clean ∧
      (TypeExpr.array element).text.toList = e.spelling ++ "[]".toList ∧
      (if element.isUnion then "(" ++ String.ofList d.doc ++ ")[]" else String.ofList d.doc ++ "[]") =
        String.ofList (e.doc ++ "[]".toList) := by
  rw [TypeExpr.text]
  cases hunion : element.isUnion with
  | true =>
    refine ⟨.arrayed (.parens d) 0, fun text htext => h.clean text ?_, ?_, ?_⟩
    · simpa [Derivation.tokens, TypeName.bracketPairs] using htext
    · rw [if_pos rfl, String.toList_append, String.toList_append, h.text]
      simp [Derivation.spelling, Derivation.tokens, TypeName.bracketPairs, TypeName.Token.spelling]
    · rw [if_pos rfl, Derivation.doc_bare, Derivation.doc, ← String.toList_inj]
      simp
  | false =>
    obtain ⟨e, rfl⟩ := h.single hunion
    refine ⟨e, fun text htext => h.clean text (List.mem_append_left _ htext), ?_, ?_⟩
    · rw [if_neg (by simp), String.toList_append, h.text, Derivation.spelling, Derivation.tokens,
        Derivation.tokens, List.append_nil, Derivation.spelling]
    · rw [if_neg (by simp), Derivation.doc, Derivation.doc, List.append_nil, String.ofList_append,
        String.ofList_toList]

/-- An array is the spelling of a derivation when its element is, and it is resolved to the documentation
spelling. -/
theorem exists_spells_array {element : TypeExpr} {d : Derivation .union} (h : element.Spells d)
    (helement : t.resolveExpr table owner element = .ok (resolved d)) :
    ∃ d, (TypeExpr.array element).Spells d ∧
      t.resolveExpr table owner (.array element) = .ok (resolved d) := by
  obtain ⟨e, hclean, htext, hname⟩ := exists_element h
  refine ⟨.union e.array .noMember, ⟨fun text hmem => hclean text ?_, ?_, fun _ => ⟨_, rfl⟩⟩, ?_⟩
  · simpa [Derivation.tokens, Derivation.tokens_array] using hmem
  · rw [htext, ← Derivation.spelling_array, Derivation.spelling, Derivation.spelling,
      Derivation.tokens, Derivation.tokens, List.append_nil]
  · rw [resolveExpr, helement]
    change Except.ok _ = Except.ok _
    rw [resolved, resolved, hname, TypeName.format, String.toList_ofList, hclean.formatChars_array,
      Derivation.doc, Derivation.doc, List.append_nil]

/-- A reference is the spelling of a derivation when its arguments are, and it is resolved to the
documentation spelling. -/
theorem exists_spells_reference {name : String} (hparams : (t.decl owner).typeParams = [])
    (h : t.Verbatim table owner name) {args : List TypeExpr} {ds : List (Derivation .union)}
    (hclean : ∀ d ∈ ds, d.Clean)
    (htexts : TypeExpr.texts args = (ds.map Derivation.spelling).map String.ofList)
    (hargs : t.resolveExprs table owner args = .ok (ds.map resolved)) :
    ∃ d, (TypeExpr.reference name args).Spells d ∧
      t.resolveExpr table owner (.reference name args) = .ok (resolved d) := by
  obtain ⟨hname, hparam, hsymbol⟩ := h
  rw [resolveExpr_unresolved hparams hparam hsymbol hargs]
  cases args with
  | nil =>
    obtain rfl : ds = [] := by
      rw [TypeExpr.texts] at htexts
      exact List.map_eq_nil_iff.1 (List.map_eq_nil_iff.1 htexts.symm)
    have hclean := Derivation.Clean.named hname
    refine ⟨.named name.toList, ⟨hclean, ?_, fun _ => ⟨_, rfl⟩⟩, ?_⟩
    · rw [TypeExpr.text, Derivation.spelling_named]
    · have htokens : TypeName.tokens name.toList = (Derivation.named name.toList).tokens := by
        rw [← hclean.proper.tokens_spelling, Derivation.spelling_named]
      have hangled : name ++ angled [] = name := String.append_empty
      rw [List.map_nil, List.map_nil, hangled, TypeName.format, hclean.formatChars_eq htokens, resolved]
  | cons arg args =>
    cases ds with
    | nil =>
      rw [TypeExpr.texts] at htexts
      cases htexts
    | cons d ds =>
      have hclean := Derivation.Clean.appliedTo hname (hclean d List.mem_cons_self)
        fun e he => hclean e (List.mem_cons_of_mem d he)
      refine ⟨.appliedTo name.toList d ds, ⟨hclean, ?_, fun _ => ⟨_, rfl⟩⟩, ?_⟩
      · rw [TypeExpr.text, htexts, String.toList_append, String.toList_append, String.toList_append,
          Text.toList_joinStrings_ofList, Derivation.spelling_appliedTo]
      · rw [List.map_cons, List.map_cons, angled, if_neg (by simp), ← List.map_cons, ← List.map_cons,
          TypeName.format, String.toList_append, String.toList_append, String.toList_append,
          Text.toList_joinStrings_ofList, ← List.append_assoc, ← List.append_assoc,
          hclean.formatChars_appliedTo, resolved]

mutual

/-- An annotation is the spelling of a derivation, and resolving it gives the documentation spelling. -/
theorem exists_spells (hparams : (t.decl owner).typeParams = []) : ∀ type : TypeExpr,
    type.MadeOf (fun text => CleanName text.toList) (t.Verbatim table owner) →
      ∃ d, type.Spells d ∧ t.resolveExpr table owner type = .ok (resolved d)
  | .intrinsic text, h => by
    unfold TypeExpr.MadeOf at h
    refine ⟨.named text.toList, ⟨.named h, ?_, fun _ => ⟨_, rfl⟩⟩, ?_⟩
    · rw [TypeExpr.text, Derivation.spelling_named]
    · rw [resolveExpr, resolved, Derivation.doc_named h, String.ofList_toList]
  | .reference name args, h => by
    unfold TypeExpr.MadeOf at h
    obtain ⟨ds, hclean, htexts, hresults⟩ := exists_spells_all hparams args h.2
    exact exists_spells_reference hparams h.1 hclean htexts hresults
  | .array element, h => by
    unfold TypeExpr.MadeOf at h
    obtain ⟨d, hspells, hresolved⟩ := exists_spells hparams element h
    exact exists_spells_array hspells hresolved
  | .union [], h => by
    unfold TypeExpr.MadeOf at h
    exact absurd rfl h.1
  | .union (member :: members), h => by
    unfold TypeExpr.MadeOf at h
    obtain ⟨hmember, hmembers⟩ := h.2
    -- Neither side writes brackets around a member, so the members of inner unions are united as well.
    obtain ⟨d, hspells, hresolved⟩ := exists_spells hparams member hmember
    obtain ⟨ds, hclean, htexts, hresults⟩ := exists_spells_all hparams members hmembers
    refine ⟨.unite d ds, ⟨hspells.clean.unite hclean, ?_, fun hunion => by cases hunion⟩, ?_⟩
    · have htexts : TypeExpr.texts (member :: members) =
          ((d :: ds).map Derivation.spelling).map String.ofList := by
        rw [TypeExpr.texts, htexts, List.map_cons, List.map_cons, ← hspells.text,
          String.ofList_toList]
      rw [TypeExpr.text, htexts, Text.toList_joinStrings_ofList, Derivation.spelling_unite]
    · have hresults : t.resolveExprs table owner (member :: members) =
          .ok ((d :: ds).map resolved) := by
        rw [resolveExprs, hresolved, hresults]
        rfl
      rw [resolveExpr, hresults]
      change Except.ok _ = Except.ok _
      rw [names_resolved, anonymous_resolved, Text.joinStrings_ofList, resolved, Derivation.doc_unite]
  | .query text, h => by
    unfold TypeExpr.MadeOf at h
    exact h.elim
  | .object node, h => by
    unfold TypeExpr.MadeOf at h
    exact h.elim
  | .function node, h => by
    unfold TypeExpr.MadeOf at h
    exact h.elim
  | .other text, h => by
    unfold TypeExpr.MadeOf at h
    exact h.elim

theorem exists_spells_all (hparams : (t.decl owner).typeParams = []) : ∀ types : List TypeExpr,
    TypeExpr.AllMadeOf (fun text => CleanName text.toList) (t.Verbatim table owner) types →
      ∃ ds : List (Derivation .union), (∀ d ∈ ds, d.Clean) ∧
        TypeExpr.texts types = (ds.map Derivation.spelling).map String.ofList ∧
        t.resolveExprs table owner types = .ok (ds.map resolved)
  | [], _ => ⟨[], by simp, by rw [TypeExpr.texts]; rfl, by rw [resolveExprs]; rfl⟩
  | type :: types, h => by
    unfold TypeExpr.AllMadeOf at h
    obtain ⟨d, hspells, hresolved⟩ := exists_spells hparams type h.1
    obtain ⟨ds, hclean, htexts, hresults⟩ := exists_spells_all hparams types h.2
    refine ⟨d :: ds, ?_, ?_, ?_⟩
    · intro e he
      rcases List.mem_cons.1 he with rfl | he
      · exact hspells.clean
      · exact hclean e he
    · rw [TypeExpr.texts, htexts, List.map_cons, List.map_cons, ← hspells.text, String.ofList_toList]
    · rw [resolveExprs, hresolved, hresults]
      rfl

end

/-- Resolving an annotation gives what formatting its spelling gives, and no inline types, when all its
names are clean, no reference in it is resolved to another name or is a type parameter, and the declaration
that it is written on has no type parameters. -/
theorem resolveTypeName_eq_format {type : TypeExpr} (hparams : (t.decl owner).typeParams = [])
    (h : type.MadeOf (fun text => CleanName text.toList) (t.Verbatim table owner))
    (inferred : Option ResolvedType) :
    t.resolveTypeName table owner (some type) inferred =
      .ok { name := TypeName.format type.text, anonymous := [] } := by
  obtain ⟨d, hspells, hresolved⟩ := exists_spells hparams type h
  have htokens : TypeName.tokens type.text.toList = d.tokens := by
    rw [hspells.text, hspells.clean.proper.tokens_spelling]
  rw [resolveTypeName, hresolved, TypeName.format, hspells.clean.formatChars_eq htokens, resolved]

end Tree

/-- A class beside a variable of other types. -/
def Source.atlasModule : Source.ModuleForm where
  items :=
    [.classDecl {} "Atlas" {},
      .variable {} "atlas" none (some (.named "Map"
        [.word "string", .array (.union [.named "Page" [], .array (.named "Grid" [])])]))]

/-- The type `Map<string, (Page | Grid[])[]>`. -/
def TypeExpr.pagesByName : TypeExpr :=
  .reference "Map" [.intrinsic "string",
    .array (.union [.reference "Page" [], .array (.reference "Grid" [])])]

theorem Tree.resolveTypeName_eq_format_atlasModule :
    let tree := Source.atlasModule.toTree "atlas.ts"
    let program : Program := { units := [tree] }
    (tree.decl 2).annotation? = some .pagesByName ∧
      TypeExpr.pagesByName.text = "Map<string, (Page | Grid[])[]>" ∧
      TypeName.format "Map<string, (Page | Grid[])[]>" =
        "Map.<string, Array.<Page | Array.<Grid>>>" ∧
      tree.resolveTypeName program.table 2 (some .pagesByName) none =
        .ok { name := "Map.<string, Array.<Page | Array.<Grid>>>", anonymous := [] } := by
  intro tree program
  have hname : ∀ name ∈ ["Map", "Page", "Grid"], tree.Verbatim program.table 2 name := by
    decide +kernel
  have hmade : TypeExpr.pagesByName.MadeOf (fun text => CleanName text.toList)
      (tree.Verbatim program.table 2) := by
    simp only [TypeExpr.pagesByName, TypeExpr.MadeOf, TypeExpr.AllMadeOf, and_true]
    exact ⟨hname "Map" (by simp), by decide, by simp, hname "Page" (by simp), hname "Grid" (by simp)⟩
  have htext : TypeExpr.pagesByName.text = "Map<string, (Page | Grid[])[]>" := by decide +kernel
  have hformat : TypeName.format "Map<string, (Page | Grid[])[]>" =
      "Map.<string, Array.<Page | Array.<Grid>>>" := by decide +kernel
  have hresult := resolveTypeName_eq_format (by decide +kernel) hmade none
  rw [htext, hformat] at hresult
  exact ⟨rfl, htext, hformat, hresult⟩

end DocBlock
