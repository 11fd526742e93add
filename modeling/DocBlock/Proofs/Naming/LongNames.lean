import DocBlock.Proofs.Comment.Gathering
import DocBlock.Proofs.Source.Steady
import DocBlock.Proofs.Symbol.Table

/-! # Long names

The long name of a declaration is written in four places: in front of the name of the declaration as its
owner, behind `@memberof` of its members, as the dotted name of its symbol, and where a type refers to it.
Each place works it out from other ancestors. For a class, interface, enumeration or namespace of a file
or namespace all of them come to the same text (`longNames_agree`), as long as no name has quotes in it
and nothing is marked as a module. A reference that names a type parameter in scope is the exception: it
is written as it stands, whatever is declared under that name. -/

namespace DocBlock

/-- A program of trees that written files become. -/
def Program.IsWritten (program : Program) : Prop :=
  ∀ tree ∈ program.units, ∃ (path : String) (form : Source.ModuleForm), tree = form.toTree path

theorem SourceFile.tree_eq_toTree {file : SourceFile} {tree : Tree} (h : file.tree = .ok tree) :
    ∃ form : Source.ModuleForm, tree = form.toTree file.path := by
  delta SourceFile.tree at h
  dsimp only at h
  split at h
  · rename_i form _
    exact ⟨form, (Except.ok.inj h).symm⟩
  · cases h

theorem Program.isWritten_ofFiles (files : List SourceFile) : (Program.ofFiles files).IsWritten := by
  induction files with
  | nil => exact fun tree htree => absurd htree List.not_mem_nil
  | cons file files ih =>
    intro tree htree
    have hfiles : Program.ofFiles (file :: files) = (Program.ofFiles files).cons file.tree := rfl
    rw [hfiles] at htree
    cases houtcome : file.tree with
    | error error =>
      rw [houtcome] at htree
      exact ih tree htree
    | ok first =>
      rw [houtcome] at htree
      rcases List.mem_cons.1 htree with rfl | hrest
      · exact ⟨file.path, SourceFile.tree_eq_toTree houtcome⟩
      · exact ih tree hrest

namespace Decl

theorem name?_of_isNamedScope {decl : Decl} (h : decl.isNamedScope = true) :
    ∃ name, decl.name? = some name := by
  cases decl with
  | interface i => exact ⟨i.name, rfl⟩
  | classDecl c => exact ⟨c.name, rfl⟩
  | enum e => exact ⟨e.name, rfl⟩
  | namespaceDecl n => exact ⟨n.name, rfl⟩
  | _ => cases h

theorem isOwner_of_isNamedScope {decl : Decl} (h : decl.isNamedScope = true) : decl.isOwner = true := by
  cases decl with
  | file moduleName => rfl
  | objectType => rfl
  | _ => exact h

/-- Whether a declaration is not marked as a module and has no quotes in its name. -/
def isPlain : Decl → Bool
  | file moduleName => moduleName.isNone
  | namespaceDecl n => !n.external && !n.name.toList.contains '"'
  | decl => decl.name?.all fun name => !name.toList.contains '"'

end Decl

namespace Tree

variable {t : Tree} {c p : NodeId} {name : String} {owner : Option String}

/-- A tree without names of modules and without quotes in names. -/
def PlainNames (t : Tree) : Prop :=
  ∀ i < t.size, (t.decl i).isPlain = true

instance (t : Tree) : Decidable t.PlainNames :=
  inferInstanceAs (Decidable (∀ i < t.size, (t.decl i).isPlain = true))

/-- The name of a declaration behind that of its owner, when there is one. -/
def longName (t : Tree) (i : NodeId) : Except Error String := do
  let owner ← t.ownerName i
  let name := (t.decl i).name?.getD ""
  return owner.elim name fun owner => owner ++ "." ++ name

/-! ## Quotes -/

theorem unquoted_append (a b : String) : unquoted (a ++ b) = unquoted a ++ unquoted b := by
  simp only [unquoted, String.toList_append, List.filter_append, String.ofList_append]

theorem unquoted_eq_self (h : '"' ∉ name.toList) : unquoted name = name := by
  have hkeep : name.toList.filter (· != '"') = name.toList := by
    rw [List.filter_eq_self]
    rintro c hc
    rw [bne_iff_ne]
    rintro rfl
    exact h hc
  rw [unquoted, hkeep, String.ofList_toList]

/-! ## Names of declarations -/

theorem PlainNames.isPlain (h : t.PlainNames) (i : NodeId) : (t.decl i).isPlain = true := by
  by_cases hsize : i < t.size
  · exact h i hsize
  · rw [decl_of_size_le (Nat.le_of_not_lt hsize)]
    rfl

theorem PlainNames.internal (h : t.PlainNames) {n : Namespace} (hdecl : t.decl c = .namespaceDecl n) :
    n.external = false := by
  have hplain := h.isPlain c
  rw [hdecl, Decl.isPlain, Bool.and_eq_true, Bool.not_eq_true'] at hplain
  exact hplain.1

theorem PlainNames.unnamedFile (h : t.PlainNames) {moduleName : Option String}
    (hdecl : t.decl c = .file moduleName) : moduleName = none := by
  have hplain := h.isPlain c
  rw [hdecl, Decl.isPlain] at hplain
  exact Option.isNone_iff_eq_none.1 hplain

theorem PlainNames.noQuotes (h : t.PlainNames) (hname : (t.decl c).name? = some name) :
    '"' ∉ name.toList := by
  have hplain := h.isPlain c
  unfold Decl.isPlain at hplain
  split at hplain
  · rename_i hdecl
    rw [hdecl] at hname
    cases hname
  · rename_i n hdecl
    rw [hdecl] at hname
    cases hname
    rw [Bool.and_eq_true] at hplain
    simpa using hplain.2
  · rw [hname] at hplain
    simpa using hplain

theorem PlainNames.symbolName?_eq (h : t.PlainNames) (i : NodeId) :
    (t.decl i).symbolName? = (t.decl i).name? := by
  cases hdecl : t.decl i with
  | namespaceDecl n => simp [Decl.symbolName?, Decl.name?, h.internal hdecl]
  | _ => rfl

theorem PlainNames.qualifiedName?_eq (h : t.PlainNames) (hname : (t.decl c).name? = some name) :
    t.qualifiedName? c = some (unquoted (Text.joinStrings "."
      ((t.scopeNames Decl.isNamedScope (t.ancestors c)).reverse ++ [name]))) := by
  simp only [qualifiedName?, symbol?, h.symbolName?_eq, hname, Option.map_some, Symbol.dotted]

/-- Outside of all named scopes a declaration is known by its name. -/
theorem PlainNames.qualifiedName?_top (h : t.PlainNames) (hname : (t.decl c).name? = some name)
    (hscopes : t.scopeNames Decl.isNamedScope (t.ancestors c) = []) :
    t.qualifiedName? c = some name := by
  rw [h.qualifiedName?_eq hname, hscopes]
  exact congrArg some (unquoted_eq_self (h.noQuotes hname))

/-- Inside a namespace a declaration is known by its name behind that of the namespace. -/
theorem PlainNames.qualifiedName?_inner (h : t.PlainNames) (hname : (t.decl c).name? = some name)
    {n : Namespace} (hp : t.decl p = .namespaceDecl n) (hup : t.ancestors c = t.lineage p) :
    ∃ outer, t.qualifiedName? p = some outer ∧ t.qualifiedName? c = some (outer ++ "." ++ name) := by
  have hpname : (t.decl p).name? = some n.name := by rw [hp, Decl.name?]
  refine ⟨_, h.qualifiedName?_eq hpname, ?_⟩
  have hscopes : t.scopeNames Decl.isNamedScope (t.ancestors c) =
      n.name :: t.scopeNames Decl.isNamedScope (t.ancestors p) := by
    rw [hup, lineage, scopeNames, List.filter_cons_of_pos (by rw [hp, Decl.isNamedScope]),
      List.filterMap_cons_some (b := n.name) (by rw [h.symbolName?_eq, hpname]), scopeNames]
  have hplain : unquoted name = name := unquoted_eq_self (h.noQuotes hname)
  rw [h.qualifiedName?_eq hname, hscopes, List.reverse_cons,
    Comment.joinStrings_concat (by simp), unquoted_append, unquoted_append, hplain]
  rfl

/-! ## Owners -/

theorem Rooted.find?_owner (h : t.Rooted) {i : NodeId} (hi : i < t.size) (hparent : t.parent? i = some p)
    (howner : (t.decl p).isOwner = true) :
    (t.ancestors i).find? (fun a => (t.decl a).isOwner) = some p := by
  rw [h.ancestors_eq hi hparent, lineage]
  exact List.find?_cons_of_pos howner

/-- What stands in a named scope is documented as a member of it. -/
theorem PlainNames.ownerName_scope (h : t.PlainNames) {i a : NodeId}
    (hfind : (t.ancestors i).find? (fun a => (t.decl a).isOwner) = some a)
    (hscope : (t.decl a).isNamedScope = true) : t.ownerName i = .ok (t.qualifiedName? a) := by
  rw [ownerName]
  split
  · rename_i hnone
    rw [hfind] at hnone
    cases hnone
  · rename_i b hb
    obtain rfl : a = b := Option.some.inj (hfind.symm.trans hb)
    split
    · rename_i hdecl
      rw [hdecl] at hscope
      cases hscope
    · rename_i hdecl
      rw [hdecl] at hscope
      cases hscope
    · rename_i n hdecl
      rw [h.internal hdecl]
      simp
    · rfl

/-- What stands in a file has no owner. -/
theorem PlainNames.ownerName_file (h : t.PlainNames) {i a : NodeId}
    (hfind : (t.ancestors i).find? (fun a => (t.decl a).isOwner) = some a)
    {moduleName : Option String} (hfile : t.decl a = .file moduleName) : t.ownerName i = .ok none := by
  rw [ownerName]
  split
  · rfl
  · rename_i b hb
    obtain rfl : a = b := Option.some.inj (hfind.symm.trans hb)
    rw [hfile]
    exact congrArg Except.ok (h.unnamedFile hfile)

theorem longName_of_ownerName (howner : t.ownerName c = .ok owner) (hname : (t.decl c).name? = some name) :
    t.longName c = .ok (owner.elim name fun owner => owner ++ "." ++ name) := by
  rw [longName, howner, hname]
  rfl

theorem lt_size_of_isNamedScope (h : (t.decl c).isNamedScope = true) : c < t.size := by
  by_contra hge
  rw [decl_of_size_le (Nat.le_of_not_lt hge)] at h
  cases h

/-- The name behind the owner is the dotted name. Above a declaration there are only namespaces and,
around all of them, the file. -/
theorem PlainNames.longName_eq (h : t.PlainNames) (hroot : t.Rooted) (hfile : t.OneFile)
    (hscope : (t.decl c).isNamedScope = true)
    (hup : ∀ a ∈ t.ancestors c, ((t.decl a).isNamespace || (t.decl a).isFile) = true) :
    ∃ long, t.longName c = .ok long ∧ t.qualifiedName? c = some long := by
  have hsize : c < t.size := lt_size_of_isNamedScope hscope
  obtain ⟨name, hname⟩ := Decl.name?_of_isNamedScope hscope
  cases hparent : t.parent? c with
  | none =>
    have hnone : t.ancestors c = [] := by rw [ancestors, hparent]
    have howner : t.ownerName c = .ok none := by
      rw [ownerName]
      split
      · rfl
      · rename_i a ha
        rw [hnone] at ha
        cases ha
    exact ⟨_, longName_of_ownerName howner hname, h.qualifiedName?_top hname (by rw [hnone]; rfl)⟩
  | some p =>
    have hlineage := hroot.ancestors_eq hsize hparent
    have hkind := hup p (by rw [hlineage]; exact List.mem_cons_self)
    cases hdecl : t.decl p with
    | namespaceDecl n =>
      have hfind := hroot.find?_owner hsize hparent (by rw [hdecl]; rfl)
      obtain ⟨outer, houter, hinner⟩ := h.qualifiedName?_inner hname hdecl hlineage
      have howner : t.ownerName c = .ok (some outer) := by
        rw [h.ownerName_scope hfind (by rw [hdecl]; rfl), houter]
      exact ⟨_, longName_of_ownerName howner hname, hinner⟩
    | file moduleName =>
      -- The file is the root, so there is no scope above it.
      have hzero : p = 0 := by
        by_contra hne
        have hlt := hroot.lt_of_parent hsize hparent
        have hno := hfile p (Nat.pos_of_ne_zero hne) (Nat.lt_trans hlt hsize)
        rw [hdecl] at hno
        cases hno
      have hscopes : t.scopeNames Decl.isNamedScope (t.ancestors c) = [] := by
        have hnone : t.ancestors 0 = [] := by rw [ancestors, hroot.root]
        rw [hlineage, hzero, lineage, hnone, scopeNames, List.filter_cons_of_neg]
        · rfl
        · rw [← hzero, hdecl]
          exact Bool.false_ne_true
      have hfind := hroot.find?_owner hsize hparent (by rw [hdecl]; rfl)
      have howner := h.ownerName_file hfind hdecl
      exact ⟨_, longName_of_ownerName howner hname, h.qualifiedName?_top hname hscopes⟩
    | _ =>
      rw [hdecl] at hkind
      cases hkind

/-! ## References -/

/-- A reference that does not name a type parameter is written with the dotted name of the symbol that
it reaches. -/
theorem resolveExpr_reference {table : SymbolTable} {owner : NodeId} {r : String} {symbol : Symbol}
    (hsymbol : table.resolve? t owner r = some symbol) (hparam : t.isTypeParameter owner r = false)
    (args : List TypeExpr) :
    t.resolveExpr table owner (.reference r args) = (t.resolveExprs table owner args).map fun results =>
      { name := TypeName.format (unquoted symbol.dotted ++
          angled (if args.isEmpty then (t.decl owner).typeParams else results.map (·.name)))
        anonymous := results.flatMap (·.anonymous) } := by
  rw [resolveExpr, hparam, hsymbol]
  cases t.resolveExprs table owner args <;> rfl

end Tree

/-- The long name of a declaration is the same text wherever it is written. -/
theorem Program.longNames_agree (program : Program) (hwritten : program.IsWritten)
    (hplain : ∀ t ∈ program.units, t.PlainNames) :
    ∀ t ∈ program.units, ∀ c, (t.decl c).isNamedScope = true →
      (∀ a ∈ t.ancestors c, ((t.decl a).isNamespace || (t.decl a).isFile) = true) →
      ∃ long, t.longName c = .ok long ∧ t.qualifiedName? c = some long ∧
        (∀ x ∈ t.children c, t.ownerName x = .ok (some long)) ∧
        ∀ unit ∈ program.units, ∀ n r symbol, program.table.resolve? unit n r = some symbol →
          (t.symbol? c).map Symbol.dotted = some symbol.dotted → unit.isTypeParameter n r = false →
          ∀ args, unit.resolveExpr program.table n (.reference r args) =
            (unit.resolveExprs program.table n args).map fun results =>
              { name := TypeName.format (long ++ Tree.angled
                  (if args.isEmpty then (unit.decl n).typeParams else results.map (·.name)))
                anonymous := results.flatMap (·.anonymous) } := by
  intro t ht c hscope hup
  obtain ⟨path, form, rfl⟩ := hwritten t ht
  have hnames := hplain _ ht
  have hroot := (form.placed_toTree path).toRooted
  obtain ⟨long, hlong, hqualified⟩ := hnames.longName_eq hroot (form.oneFile_toTree path) hscope hup
  refine ⟨long, hlong, hqualified, ?_, ?_⟩
  · intro x hx
    obtain ⟨hsize, hparent⟩ := Tree.mem_children.1 hx
    have hfind := hroot.find?_owner hsize hparent (Decl.isOwner_of_isNamedScope hscope)
    rw [hnames.ownerName_scope hfind hscope, hqualified]
  · intro unit _ n r symbol hsymbol hdotted hparam args
    have hbase : Tree.unquoted symbol.dotted = long := by
      rw [Tree.qualifiedName?] at hqualified
      have hmap := congrArg (Option.map Tree.unquoted) hdotted
      rw [Option.map_map, Option.map_some] at hmap
      exact Option.some.inj (hmap.symm.trans hqualified)
    rw [Tree.resolveExpr_reference hsymbol hparam, hbase]

/-- A namespace with a class and a variable of that class. -/
def Source.shapesModule : Source.ModuleForm where
  items :=
    [.namespaceDecl {} "Shapes" false
      [.classDecl {} "Box" { members := [.property {} { name := "size" } none] },
        .variable {} "box" none (some (.named "Box" []))]]

/-- A variable of a class of another file. -/
def Source.crateModule : Source.ModuleForm where
  items := [.variable {} "crate" none (some (.named "Shapes.Box" [.word "number"]))]

theorem Program.longNames_agree_shapesModule :
    let shapes := Source.shapesModule.toTree "shapes.ts"
    let crate := Source.crateModule.toTree "crate.ts"
    let program : Program := { units := [shapes, crate] }
    shapes.longName 2 = .ok "Shapes.Box" ∧ shapes.qualifiedName? 2 = some "Shapes.Box" ∧
      shapes.ownerName 3 = .ok (some "Shapes.Box") ∧
      shapes.resolveExpr program.table 4 (.reference "Box" []) = .ok { name := "Shapes.Box" } ∧
      crate.resolveExpr program.table 1 (.reference "Shapes.Box" [.intrinsic "number"]) =
        .ok { name := "Shapes.Box.<number>" } := by
  intro shapes crate program
  have hwritten : program.IsWritten := by
    intro tree htree
    rcases List.mem_pair.1 htree with rfl | rfl
    · exact ⟨_, _, rfl⟩
    · exact ⟨_, _, rfl⟩
  have hplain : ∀ t ∈ program.units, t.PlainNames := by decide +kernel
  have hshapes : shapes ∈ program.units := List.mem_cons_self
  have hcrate : crate ∈ program.units := List.mem_cons_of_mem _ List.mem_cons_self
  obtain ⟨long, hlong, hqualified, hchildren, hreferences⟩ :=
    program.longNames_agree hwritten hplain shapes hshapes 2 (by decide +kernel) (by decide +kernel)
  have hname : shapes.qualifiedName? 2 = some "Shapes.Box" := by decide +kernel
  obtain rfl : long = "Shapes.Box" := Option.some.inj (hqualified.symm.trans hname)
  let symbol : Symbol := { name := "Box", container := ["Shapes"] }
  refine ⟨hlong, hqualified, hchildren 3 (by decide +kernel), ?_, ?_⟩
  · refine (hreferences shapes hshapes 4 "Box" symbol (by decide +kernel) (by decide +kernel)
      (by decide +kernel) []).trans ?_
    exact congrArg Except.ok (by decide +kernel)
  · refine (hreferences crate hcrate 1 "Shapes.Box" symbol (by decide +kernel) (by decide +kernel)
      (by decide +kernel) [.intrinsic "number"]).trans ?_
    exact congrArg Except.ok (by decide +kernel)

/-- A class whose type parameter has the name of a class beside it. -/
def Source.shadowedModule : Source.ModuleForm where
  items :=
    [.namespaceDecl {} "N" false
      [.classDecl {} "T" {},
        .classDecl {} "D" { typeParams := ["T"]
                            members := [.property {} { name := "x" } (some (.named "T" []))] }]]

/-- The reference reaches the class, whose long name it is not written with. -/
theorem Program.short_name_shadowedModule :
    let tree := Source.shadowedModule.toTree "test.ts"
    let program : Program := { units := [tree] }
    tree.PlainNames ∧ (tree.decl 2).isNamedScope = true ∧
      (∀ a ∈ tree.ancestors 2, ((tree.decl a).isNamespace || (tree.decl a).isFile) = true) ∧
      program.table.resolve? tree 4 "T" = tree.symbol? 2 ∧ (tree.symbol? 2).isSome = true ∧
      (tree.decl 4).annotation? = some (.reference "T" []) ∧
      (tree.longName 2).toOption = some "N.T" ∧
      (tree.resolveExpr program.table 4 (.reference "T" [])).toOption = some { name := "T" } := by
  intro tree program
  exact ⟨by decide +kernel, by decide +kernel, by decide +kernel, by decide +kernel,
    by decide +kernel, rfl, by decide +kernel, by decide +kernel⟩

end DocBlock
