import DocBlock.Proofs.Naming.LongNames
import DocBlock.Proofs.TypeName.Fitting
import DocBlock.Proofs.TypeName.InlineNodes

/-! # Declarations whose texts fit on a line

The texts of a declaration go into its documentation as they stand. When all of them fit on a line, so do
the names of owners (`Fits.ownerName`), of anonymous types (`Fits.anonymousName`) and of types
(`Fits.resolveTypeName`), which are put together from these texts. Names are also written without their
quotes, so they have to fit without them; and the name of a parameter is written right behind another
name, so that it must not start with a slash. -/

namespace DocBlock

/-! ## Texts -/

namespace TypeExpr

mutual

/-- The texts in an annotation. -/
def leaves : TypeExpr → List String
  | intrinsic text => [text]
  | query text => [text]
  | other text => [text]
  | reference name args => name :: allLeaves args
  | array element => leaves element
  | union members => allLeaves members
  | object _ => []
  | function _ => []

/-- The texts in several annotations. -/
def allLeaves : List TypeExpr → List String
  | [] => []
  | type :: types => leaves type ++ allLeaves types

end

theorem leaves_subset {type : TypeExpr} {types : List TypeExpr} (h : type ∈ types) :
    type.leaves ⊆ allLeaves types := by
  induction types with
  | nil => exact absurd h List.not_mem_nil
  | cons first rest ih =>
    rcases List.mem_cons.1 h with rfl | h
    · exact List.subset_append_left _ _
    · exact List.Subset.trans (ih h) (List.subset_append_right _ _)

end TypeExpr

/-- The texts of a declaration other than its name. -/
def Decl.texts (decl : Decl) : List String :=
  decl.typeParams ++ decl.initializer?.toList.map Initializer.text ++
    decl.annotation?.toList.flatMap TypeExpr.leaves ++
    decl.heritage.flatMap (fun clause => TypeExpr.allLeaves clause.types) ++
    match decl with
    | .file moduleName => moduleName.toList
    | .enum e => e.members.flatMap fun member =>
        member.name :: member.initializer.toList.map Initializer.text
    | _ => []

/-- A declaration whose texts fit on a line. -/
@[mk_iff]
structure Decl.Fits (decl : Decl) : Prop where
  name : ∀ name ∈ decl.name?, FitsLine (Tree.unquoted name).toList
  texts : ∀ text ∈ decl.texts, FitsLine text.toList
  parameter : decl.isParameter = true → ∀ name ∈ decl.name?, name.toList.head? ≠ some '/'

instance (decl : Decl) : Decidable decl.Fits :=
  decidable_of_iff' _ (Decl.fits_iff decl)

/-- A tree of declarations whose texts fit on a line. -/
def Tree.Fits (t : Tree) : Prop :=
  ∀ i < t.size, (t.decl i).Fits

instance (t : Tree) : Decidable t.Fits :=
  inferInstanceAs (Decidable (∀ i < t.size, (t.decl i).Fits))

/-- A table of symbols whose dotted names fit on a line. -/
def SymbolTable.Fits (table : SymbolTable) : Prop :=
  ∀ symbol ∈ table.symbols, FitsLine (Tree.unquoted symbol.dotted).toList

/-! ## Putting texts together -/

mutual

/-- The spelling of an annotation fits when the texts in it do. -/
theorem TypeExpr.fits_text : ∀ {type : TypeExpr}, (∀ text ∈ type.leaves, FitsLine text.toList) →
    FitsLine type.text.toList
  | .intrinsic text, h => by
    unfold TypeExpr.text
    exact h text List.mem_cons_self
  | .query text, h => by
    unfold TypeExpr.text
    exact h text List.mem_cons_self
  | .other text, h => by
    unfold TypeExpr.text
    exact h text List.mem_cons_self
  | .reference name [], h => by
    unfold TypeExpr.text
    exact h name List.mem_cons_self
  | .reference name (arg :: args), h => by
    unfold TypeExpr.text
    have hname := h name List.mem_cons_self
    have hleaves : ∀ text ∈ TypeExpr.allLeaves (arg :: args), FitsLine text.toList :=
      fun text htext => h text (List.mem_cons_of_mem name htext)
    have hargs := TypeExpr.fits_texts hleaves
    simp only [String.toList_append]
    exact (hname.between (fits_joinStrings hargs (by decide)) (by decide)).before (by decide)
  | .array element, h => by
    unfold TypeExpr.text
    have hleaves : ∀ text ∈ element.leaves, FitsLine text.toList := h
    have helement := TypeExpr.fits_text hleaves
    split
    · simp only [String.toList_append]
      exact (helement.behind (by decide)).before (by decide)
    · rw [String.toList_append]
      exact helement.before (by decide)
  | .union members, h => by
    unfold TypeExpr.text
    have hleaves : ∀ text ∈ TypeExpr.allLeaves members, FitsLine text.toList := h
    exact fits_joinStrings (TypeExpr.fits_texts hleaves) (by decide)
  | .object _, _ => by
    unfold TypeExpr.text
    decide
  | .function _, _ => by
    unfold TypeExpr.text
    decide

theorem TypeExpr.fits_texts : ∀ {types : List TypeExpr},
    (∀ text ∈ TypeExpr.allLeaves types, FitsLine text.toList) →
      ∀ text ∈ TypeExpr.texts types, FitsLine text.toList
  | [], _, text, htext => by
    unfold TypeExpr.texts at htext
    exact absurd htext List.not_mem_nil
  | type :: types, h, text, htext => by
    unfold TypeExpr.texts at htext
    rcases List.mem_cons.1 htext with rfl | htext
    · exact TypeExpr.fits_text fun text htext => h text (List.mem_append_left _ htext)
    · exact TypeExpr.fits_texts (fun text htext => h text (List.mem_append_right _ htext)) text htext

end

namespace Decl

variable {decl : Decl} {text : String}

theorem Fits.typeParams (h : decl.Fits) (htext : text ∈ decl.typeParams) : FitsLine text.toList := by
  apply h.texts
  simp only [Decl.texts, List.mem_append]
  exact .inl (.inl (.inl (.inl htext)))

theorem Fits.initializer (h : decl.Fits) {init : Initializer} (hinit : decl.initializer? = some init) :
    FitsLine init.text.toList := by
  apply h.texts
  simp only [Decl.texts, List.mem_append, hinit]
  exact .inl (.inl (.inl (.inr List.mem_cons_self)))

theorem Fits.annotated (h : decl.Fits) {type : TypeExpr} (htype : decl.annotation? = some type)
    (htext : text ∈ type.leaves) : FitsLine text.toList := by
  apply h.texts
  simp only [Decl.texts, List.mem_append, htype]
  exact .inl (.inl (.inr (List.mem_flatMap.2 ⟨type, List.mem_cons_self, htext⟩)))

theorem Fits.heritage (h : decl.Fits) {clause : HeritageClause} (hclause : clause ∈ decl.heritage)
    {type : TypeExpr} (htype : type ∈ clause.types) (htext : text ∈ type.leaves) :
    FitsLine text.toList := by
  apply h.texts
  simp only [Decl.texts, List.mem_append]
  refine .inl (.inr (List.mem_flatMap.2 ⟨clause, hclause, ?_⟩))
  exact TypeExpr.leaves_subset htype htext

/-- The declared name fits with its quotes, and without them. -/
theorem Fits.declaredName (h : decl.Fits) : FitsLine (decl.name?.getD "").toList := by
  cases hname : decl.name? with
  | none => exact FitsLine.nil
  | some name => exact Tree.fitsLine_of_unquoted (h.name name hname)

end Decl

/-! ## Names of declarations -/

namespace Tree

variable {t : Tree} {table : SymbolTable} {i owner : Nat} {name : String}

theorem Fits.decl (h : t.Fits) (i : NodeId) : (t.decl i).Fits := by
  by_cases hsize : i < t.size
  · exact h i hsize
  · rw [decl_of_size_le (Nat.le_of_not_lt hsize)]
    decide

theorem unquoted_joinStrings {sep : String} (hsep : '"' ∉ sep.toList) (pieces : List String) :
    unquoted (Text.joinStrings sep pieces) = Text.joinStrings sep (pieces.map unquoted) := by
  induction pieces with
  | nil => rfl
  | cons piece pieces ih =>
    cases pieces with
    | nil => rfl
    | cons next pieces =>
      have hjoin : Text.joinStrings sep (piece :: next :: pieces) =
          piece ++ sep ++ Text.joinStrings sep (next :: pieces) := rfl
      rw [hjoin, unquoted_append, unquoted_append, unquoted_eq_self hsep, ih]
      rfl

/-- The quotes around the name of an ambient module do not count. -/
theorem Fits.symbolName (h : t.Fits) (hname : (t.decl i).symbolName? = some name) :
    FitsLine (unquoted name).toList := by
  have hdecl := (h.decl i).name
  unfold Decl.symbolName? at hname
  split at hname
  · rename_i n hn
    rw [hn] at hdecl
    have hfits : FitsLine (unquoted n.name).toList := hdecl n.name rfl
    obtain rfl := Option.some.inj hname
    split
    · have hquotes : unquoted ("\"" ++ n.name ++ "\"") = unquoted n.name := by
        rw [unquoted_append, unquoted_append]
        simp [unquoted]
      rw [hquotes]
      exact hfits
    · exact hfits
  · exact hdecl name hname

theorem Fits.dotted (h : t.Fits) {symbol : Symbol} (hsymbol : t.symbol? i = some symbol) :
    FitsLine (unquoted symbol.dotted).toList := by
  rw [symbol?, Option.map_eq_some_iff] at hsymbol
  obtain ⟨name, hname, rfl⟩ := hsymbol
  rw [Symbol.dotted, unquoted_joinStrings (by decide)]
  refine fits_joinStrings (fun piece hpiece => ?_) (by decide)
  -- A part is the name of a scope around the declaration or its own name.
  obtain ⟨part, hpart, rfl⟩ := List.mem_map.1 hpiece
  rcases List.mem_append.1 hpart with hscope | hown
  · rw [List.mem_reverse, scopeNames] at hscope
    obtain ⟨a, -, ha⟩ := List.mem_filterMap.1 hscope
    exact h.symbolName ha
  · rw [List.mem_singleton.1 hown]
    exact h.symbolName hname

theorem Fits.qualifiedName (h : t.Fits) (hname : t.qualifiedName? i = some name) :
    FitsLine name.toList := by
  obtain ⟨symbol, hsymbol, rfl⟩ := Option.map_eq_some_iff.1 hname
  exact h.dotted hsymbol

end Tree

/-- The symbols of trees whose texts fit have names that fit. -/
theorem SymbolTable.fits_ofTrees {trees : List Tree} (h : ∀ t ∈ trees, t.Fits) :
    (SymbolTable.ofTrees trees).Fits := by
  intro symbol hsymbol
  obtain ⟨t, ht, hsymbol⟩ := List.mem_flatMap.1 hsymbol
  obtain ⟨i, -, hi⟩ := List.mem_filterMap.1 hsymbol
  exact (h t ht).dotted hi

/-- A reference leads to a symbol of the table. -/
theorem SymbolTable.mem_of_resolve? {table : SymbolTable} {t : Tree} {owner : NodeId} {name : String}
    {symbol : Symbol} (h : table.resolve? t owner name = some symbol) : symbol ∈ table.symbols := by
  obtain ⟨depth, -, hfind⟩ := List.exists_of_findSome?_eq_some h
  exact List.mem_reverse.1 (List.mem_of_find?_eq_some hfind)

/-! ## Names of anonymous types and of owners -/

namespace Tree

variable {t : Tree} {table : SymbolTable} {i owner : Nat} {name : String}

theorem Fits.nearestName (h : t.Fits) (i : NodeId) : FitsLine (t.nearestName i).toList := by
  rw [Tree.nearestName]
  cases hfound : (t.ancestors i).findSome? fun a => (t.decl a).name? with
  | none => exact FitsLine.nil
  | some name =>
    obtain ⟨a, -, ha⟩ := List.exists_of_findSome?_eq_some hfound
    exact fitsLine_of_unquoted ((h.decl a).name name ha)

theorem Fits.anonymousStem (h : t.Fits) (i : NodeId) : FitsLine (t.anonymousStem i).toList := by
  have hname := (h.decl i).declaredName
  have hparameter := (h.decl i).parameter
  rw [Tree.anonymousStem]
  split
  · rename_i role c hdecl
    rw [hdecl] at hname
    rw [String.toList_append]
    exact (fits_capitalized hname).before (by decide)
  · -- The two names of a parameter stand side by side.
    rename_i p hdecl
    rw [hdecl] at hname hparameter
    rw [String.toList_append]
    refine (fits_capitalized (h.nearestName i)).append (fits_capitalized hname) (.inr ?_)
    rw [capitalized, String.toList_ofList]
    exact head?_capitalize (hparameter rfl p.name rfl)
  · exact fits_capitalized hname

theorem Fits.anonymousName (h : t.Fits) (hname : t.anonymousName i = .ok name) :
    FitsLine name.toList := by
  rw [Tree.anonymousName] at hname
  split at hname
  · cases hname
  · rename_i a ha
    obtain rfl := Except.ok.inj hname
    rw [String.toList_append]
    refine (h.anonymousStem a).before ?_
    rw [anonymousSuffix]
    split <;> decide

theorem fits_behindOwner {owner : Option String} (howner : ∀ text ∈ owner, FitsLine text.toList)
    (hname : FitsLine name.toList) : FitsLine (behindOwner owner name).toList := by
  cases owner with
  | none => exact hname
  | some text =>
    rw [behindOwner]
    split
    · exact hname
    · simp only [String.toList_append]
      exact (howner text rfl).between hname (by decide)

theorem Fits.ownerName (h : t.Fits) {owner : Option String} (howner : t.ownerName i = .ok owner) :
    ∀ text ∈ owner, FitsLine text.toList := by
  induction i using Nat.strongRecOn generalizing owner with
  | ind i ih =>
    rw [Tree.ownerName] at howner
    split at howner
    · obtain rfl := Except.ok.inj howner
      rintro text ⟨⟩
    · rename_i a hfind
      have hlt : a < i := lt_of_mem_ancestors (List.mem_of_find?_eq_some hfind)
      split at howner
      · obtain ⟨outer, houter, howner⟩ := Error.bind_eq_ok.1 howner
        obtain ⟨name, hname, howner⟩ := Error.bind_eq_ok.1 howner
        obtain rfl := Except.ok.inj howner
        rintro text ⟨⟩
        exact fits_behindOwner (ih a hlt houter) (h.anonymousName hname)
      · rename_i moduleName hdecl
        obtain rfl := Except.ok.inj howner
        intro text htext
        have hfits := (h.decl a).texts
        rw [hdecl] at hfits
        exact hfits text (List.mem_append_right _ (by simpa using htext))
      · obtain rfl := Except.ok.inj howner
        intro text htext
        obtain ⟨name, hname, rfl⟩ := Option.map_eq_some_iff.1 htext
        have hfits := h.qualifiedName hname
        split
        · rw [String.toList_append]
          exact hfits.behind (by decide)
        · exact hfits
      · obtain rfl := Except.ok.inj howner
        exact fun text htext => h.qualifiedName htext

theorem Fits.anonymousFullName (h : t.Fits) (hname : t.anonymousFullName i = .ok name) :
    FitsLine name.toList := by
  obtain ⟨owner, howner, hname⟩ := Error.bind_eq_ok.1 hname
  obtain ⟨inner, hinner, hname⟩ := Error.bind_eq_ok.1 hname
  obtain rfl := Except.ok.inj hname
  exact fits_behindOwner (h.ownerName howner) (h.anonymousName hinner)

/-! ## Names of types -/

theorem fits_angled {base : String} {args : List String} (hbase : FitsLine base.toList)
    (hargs : ∀ arg ∈ args, FitsLine arg.toList) : FitsLine (base ++ angled args).toList := by
  rw [angled]
  split
  · rw [String.append_empty]
    exact hbase
  · simp only [String.toList_append]
    rw [← List.append_assoc, ← List.append_assoc]
    exact (hbase.between (fits_joinStrings hargs (by decide)) (by decide)).before (by decide)

mutual

/-- The documentation name of an annotation fits when the texts in it do. -/
theorem Fits.resolveExpr (h : t.Fits) (htable : table.Fits) (owner : NodeId) : ∀ {type : TypeExpr},
    (∀ text ∈ type.leaves, FitsLine text.toList) → ∀ {result : TypeNameResult},
      t.resolveExpr table owner type = .ok result → FitsLine result.name.toList
  | .intrinsic text, htype, result, hresult => by
    unfold Tree.resolveExpr at hresult
    obtain rfl := Except.ok.inj hresult
    exact htype text List.mem_cons_self
  | .query text, htype, result, hresult => by
    unfold Tree.resolveExpr at hresult
    obtain rfl := Except.ok.inj hresult
    exact TypeName.fits_format (htype text List.mem_cons_self)
  | .other text, htype, result, hresult => by
    unfold Tree.resolveExpr at hresult
    obtain rfl := Except.ok.inj hresult
    exact TypeName.fits_format (htype text List.mem_cons_self)
  | .object node, _, result, hresult => by
    unfold Tree.resolveExpr at hresult
    obtain ⟨name, hname, hresult⟩ := Error.bind_eq_ok.1 hresult
    obtain rfl := Except.ok.inj hresult
    exact TypeName.fits_format (h.anonymousFullName hname)
  | .function node, _, result, hresult => by
    unfold Tree.resolveExpr at hresult
    obtain ⟨name, hname, hresult⟩ := Error.bind_eq_ok.1 hresult
    obtain rfl := Except.ok.inj hresult
    exact TypeName.fits_format (h.anonymousFullName hname)
  | .union members, htype, result, hresult => by
    unfold Tree.resolveExpr at hresult
    obtain ⟨results, hresults, hresult⟩ := Error.bind_eq_ok.1 hresult
    obtain rfl := Except.ok.inj hresult
    exact fits_joinStrings (Fits.resolveExprs h htable owner htype hresults) (by decide)
  | .array element, htype, result, hresult => by
    unfold Tree.resolveExpr at hresult
    obtain ⟨inner, hinner, hresult⟩ := Error.bind_eq_ok.1 hresult
    obtain rfl := Except.ok.inj hresult
    have hleaves : ∀ text ∈ element.leaves, FitsLine text.toList := htype
    have hname := Fits.resolveExpr h htable owner hleaves hinner
    refine TypeName.fits_format ?_
    split
    · simp only [String.toList_append]
      exact (hname.behind (by decide)).before (by decide)
    · rw [String.toList_append]
      exact hname.before (by decide)
  | .reference name args, htype, result, hresult => by
    unfold Tree.resolveExpr at hresult
    split at hresult
    · obtain rfl := Except.ok.inj hresult
      exact TypeExpr.fits_text htype
    · obtain ⟨results, hresults, hresult⟩ := Error.bind_eq_ok.1 hresult
      obtain rfl := Except.ok.inj hresult
      have hargs := Fits.resolveExprs h htable owner
        (fun text htext => htype text (List.mem_cons_of_mem name htext)) hresults
      -- Without arguments the type parameters of the declaration stand in their place.
      refine TypeName.fits_format (fits_angled ?_ fun arg harg => ?_)
      · cases hsymbol : table.resolve? t owner name with
        | none => exact htype name List.mem_cons_self
        | some symbol => exact htable symbol (SymbolTable.mem_of_resolve? hsymbol)
      · split at harg
        · exact (h.decl owner).typeParams harg
        · exact hargs arg harg

theorem Fits.resolveExprs (h : t.Fits) (htable : table.Fits) (owner : NodeId) :
    ∀ {types : List TypeExpr}, (∀ text ∈ TypeExpr.allLeaves types, FitsLine text.toList) →
      ∀ {results : List TypeNameResult}, t.resolveExprs table owner types = .ok results →
        ∀ name ∈ results.map (·.name), FitsLine name.toList
  | [], _, results, hresults => by
    unfold Tree.resolveExprs at hresults
    obtain rfl := Except.ok.inj hresults
    exact fun name hname => absurd hname List.not_mem_nil
  | type :: types, htypes, results, hresults => by
    unfold Tree.resolveExprs at hresults
    obtain ⟨first, hfirst, hresults⟩ := Error.bind_eq_ok.1 hresults
    obtain ⟨others, hothers, hresults⟩ := Error.bind_eq_ok.1 hresults
    obtain rfl := Except.ok.inj hresults
    intro name hname
    rcases List.mem_cons.1 hname with rfl | hname
    · exact Fits.resolveExpr h htable owner (fun text htext => htypes text (List.mem_append_left _ htext))
        hfirst
    · exact Fits.resolveExprs h htable owner
        (fun text htext => htypes text (List.mem_append_right _ htext)) hothers name hname

end

/-- What a literal implies is one of three words; any other declaration without an annotation shows the
wildcard. -/
theorem fits_inferred (htype : (t.decl i).annotation? = none) :
    FitsLine ((t.typeOf? table i).elim "*" resolveInferred).toList := by
  have hwords : ∀ literal : LiteralKind, FitsLine literal.typeName.toList := by
    rintro (_ | _ | _) <;> decide
  rw [typeOf?, htype]
  dsimp only
  cases (t.decl i).initializer? with
  | none => exact (by decide : FitsLine "*".toList)
  | some init =>
    cases init with
    | mk text literal =>
      cases literal with
      | none => exact (by decide : FitsLine "*".toList)
      | some literal => exact hwords literal

/-- The documentation name of the type of a declaration fits. -/
theorem Fits.resolveTypeName (h : t.Fits) (htable : table.Fits) {result : TypeNameResult}
    (hresult : t.resolveTypeName table i (t.decl i).annotation? (t.typeOf? table i) = .ok result) :
    FitsLine result.name.toList := by
  cases htype : (t.decl i).annotation? with
  | some type =>
    rw [htype] at hresult
    exact h.resolveExpr htable i (fun text htext => (h.decl i).annotated htype htext) hresult
  | none =>
    rw [htype] at hresult
    obtain rfl := Except.ok.inj hresult
    exact fits_inferred htype

end Tree

end DocBlock
