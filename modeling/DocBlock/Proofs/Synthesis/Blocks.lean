import DocBlock.Program
import DocBlock.Proofs.Synthesis.Failures
import DocBlock.Proofs.Synthesis.Fitting

/-! # The documentation is a sequence of blocks

Where the texts of all declarations of a program fit on a line, documenting a declaration keeps the
entries fitting (`document_fitting`), and the documentation of each file is a sequence of blocks
(`Program.isBlocks_document`). The condition is about declarations only: hand-written comments are read
into texts that fit. It is needed, since the texts of declarations are written as they stand: an initial
value that goes over several lines has no margin in front of its further lines. -/

namespace DocBlock

namespace Synthesis

variable {t : Tree} {table : SymbolTable} {node : NodeId}

/-! ## Declarations -/

theorem addOwn_fitting (t : Tree) (node : NodeId) : Fitting (addOwn t node) := by
  refine .newEntry ?_
  cases hcomment : t.handWritten? node with
  | none => exact Comment.fits_empty
  | some c => exact Tree.fits_handWritten? hcomment

theorem findTypedef_fitting (t : Tree) (objectType : NodeId) : Fitting (findTypedef t objectType) := by
  unfold findTypedef
  refine .lift_bind fun name _ => ?_
  split
  · exact .lift_bind fun _ _ => .get_bind fun _ _ => .pure _
  · exact (Fitting.pure none).bind fun _ => .get_bind fun _ _ => .pure _

theorem documentVariable_fitting (h : t.Fits) (htable : table.Fits) (node : NodeId) :
    Fitting (documentVariable t table node) := by
  unfold documentVariable
  split
  · rename_i objectType _
    refine (findTypedef_fitting t objectType).bind fun found => ?_
    cases found with
    | none => exact .pure ()
    | some id => exact addTypedefProperty_fitting h htable
  · refine (addOwn_fitting t node).bind fun id => ?_
    refine (addTypedName_fitting h htable (by decide)).bind fun _ => ?_
    refine (addDefault_fitting h).bind fun _ => ?_
    exact (addParent_fitting h id node).bind fun _ => addModifier_fitting id node

theorem documentFunction_fitting (h : t.Fits) (htable : table.Fits) (node : NodeId) :
    Fitting (documentFunction t table node) := by
  unfold documentFunction
  refine (addOwn_fitting t node).bind fun id => ?_
  refine (addName_fitting h (by decide) node).bind fun _ => ?_
  refine (addVariation_fitting id node).bind fun _ => ?_
  refine (addGeneric_fitting h id node).bind fun _ => ?_
  have hrest : Fitting (do addParent t id node; addModifier t id node) :=
    (addParent_fitting h id node).bind fun _ => addModifier_fitting id node
  cases hs : t.signature? node with
  | none => exact hrest
  | some s => exact (addFromSignature_fitting h htable hs).bind fun _ => hrest

theorem documentInterface_fitting (h : t.Fits) (htable : table.Fits) (node : NodeId) (decl : Interface) :
    Fitting (documentInterface t table node decl) := by
  have hmembers : ∀ role, ∀ s ∈ t.memberSignatures node role, ∃ j, t.signature? j = some s := by
    intro role s hs
    obtain ⟨j, -, hj⟩ := mem_memberSignatures hs
    exact ⟨j, hj⟩
  have hcalls : ∀ s ∈ t.callSignatures node, ∃ j, t.signature? j = some s := by
    intro s hs
    rw [Tree.callSignatures] at hs
    split at hs
    · exact ⟨node, Option.mem_toList.1 hs⟩
    · exact hmembers _ s hs
  unfold documentInterface
  refine (addOwn_fitting t node).bind fun id => ?_
  dsimp only
  split
  · exact (addCallbacks_fitting h htable hcalls).bind fun _ => .edit fun _ _ => Comment.fits_empty
  · refine (addName_fitting h (by decide) node).bind fun _ => ?_
    refine (addGeneric_fitting h id node).bind fun _ => ?_
    refine (addHeritage_fitting h htable).bind fun _ => ?_
    refine (addParent_fitting h id node).bind fun _ => ?_
    refine (addSignatureEntries_fitting h htable (by decide) (hmembers _)).bind fun _ => ?_
    refine (addSignatureEntries_fitting h htable (by decide) hcalls).bind fun _ => ?_
    exact mergeRepeated_fitting id node

theorem documentClass_fitting (h : t.Fits) (htable : table.Fits) (node : NodeId) :
    Fitting (documentClass t table node) := by
  unfold documentClass
  refine (addOwn_fitting t node).bind fun id => ?_
  refine (addName_fitting h (by decide) node).bind fun _ => ?_
  refine (addVariation_fitting id node).bind fun _ => ?_
  refine (addGeneric_fitting h id node).bind fun _ => ?_
  exact (addHeritage_fitting h htable).bind fun _ => addParent_fitting h id node

theorem documentConstructor_fitting (h : t.Fits) (htable : table.Fits) (node : NodeId) :
    Fitting (documentConstructor t table node) := by
  unfold documentConstructor
  refine (addOwn_fitting t node).bind fun id => ?_
  refine (Fitting.ensure (by decide) fits_none).bind fun _ => ?_
  refine (addVariation_fitting id node).bind fun _ => ?_
  refine (addParent_fitting h id node).bind fun _ => ?_
  split
  · rename_i s hs
    exact addFromSignature_fitting h htable hs
  · exact .pure ()

theorem documentAlias_fitting (h : t.Fits) (htable : table.Fits) (node : NodeId) :
    Fitting (documentAlias t table node) := by
  unfold documentAlias
  refine (addOwn_fitting t node).bind fun id => ?_
  refine (addTypedName_fitting h htable (by decide)).bind fun _ => ?_
  exact (addVariation_fitting id node).bind fun _ => addParent_fitting h id node

theorem documentEnum_fitting (h : t.Fits) {e : Enum} (hdecl : t.decl node = .enum e) :
    Fitting (documentEnum t node e) := by
  unfold documentEnum
  refine (addOwn_fitting t node).bind fun id => ?_
  refine (addName_fitting h (by decide) node).bind fun _ => ?_
  refine (addModifier_fitting id node).bind fun _ => ?_
  exact (addParent_fitting h id node).bind fun _ => addEnumMembers_fitting h hdecl

theorem documentNamespace_fitting (h : t.Fits) {n : Namespace} (hdecl : t.decl node = .namespaceDecl n) :
    Fitting (documentNamespace t node n) := by
  have hname : FitsLine n.name.toList := by
    have hdeclared := (h.decl node).declaredName
    rw [hdecl] at hdeclared
    exact hdeclared
  unfold documentNamespace
  refine (addOwn_fitting t node).bind fun id => ?_
  split
  · exact (Fitting.setName (by decide) hname).bind fun _ => mergeRepeated_fitting id node
  · refine (addName_fitting h (by decide) node).bind fun _ => ?_
    exact (addParent_fitting h id node).bind fun _ => mergeRepeated_fitting id node

/-- Documenting a declaration keeps the entries fitting. -/
theorem document_fitting (h : t.Fits) (htable : table.Fits) (node : NodeId) :
    Fitting (document t table node) := by
  unfold document
  split
  · exact documentVariable_fitting h htable node
  · exact documentFunction_fitting h htable node
  · exact documentFunction_fitting h htable node
  · exact documentConstructor_fitting h htable node
  · exact documentInterface_fitting h htable node _
  · exact documentClass_fitting h htable node
  · exact documentAlias_fitting h htable node
  · rename_i hdecl
    exact documentEnum_fitting h hdecl
  · rename_i hdecl
    exact documentNamespace_fitting h hdecl
  · exact .pure ()

end Synthesis

/-! ## Files -/

/-- The entries of a file whose texts fit all fit. -/
theorem Tree.Fits.collect {t : Tree} {table : SymbolTable} {comments : Collection} (h : t.Fits)
    (htable : table.Fits) (hcollect : t.collect table = .ok comments) :
    ∀ c ∈ comments.entries, c.Fits := by
  obtain ⟨pass, hpass, hcomments⟩ := Error.bind_eq_ok.1 hcollect
  obtain rfl := Except.ok.inj hcomments
  obtain ⟨⟨⟨⟩, last⟩, hrun, hlast⟩ := Error.bind_eq_ok.1 hpass
  obtain rfl := Except.ok.inj hlast
  have hfitting : Synthesis.Fitting (Synthesis.documentAll t table t.preorder) :=
    .forM fun node _ => Synthesis.document_fitting h htable node
  exact hfitting {} () last (fun c hc => absurd hc List.not_mem_nil) hrun

/-- The documentation of a file is a sequence of blocks when the texts of all declarations fit. -/
theorem Program.isBlocks_document (program : Program) (hfits : ∀ unit ∈ program.units, unit.Fits)
    {tree : Tree} (htree : tree ∈ program.units) {text : String}
    (hdocument : program.document tree = .ok text) : IsBlocks text.toList := by
  obtain ⟨comments, hcollect, htext⟩ := Error.bind_eq_ok.1 hdocument
  obtain rfl := Except.ok.inj htext
  rw [Collection.text, String.toList_ofList]
  refine comments.isBlocks_render ?_
  exact (hfits tree htree).collect (SymbolTable.fits_ofTrees hfits) hcollect

/-- A class with a comment and a method that takes an object and further values, and an enumeration. -/
def Source.boxModule : Source.ModuleForm where
  items :=
    [.classDecl { doc := some "/** Keeps\n * one thing. */" } "Box"
      { typeParams := ["T"]
        members :=
          [.method {} "put" {}
            { params :=
                [.mk {} { name := Source.Word.of? "item" }
                  (some (.object {} [.property {} "it" false (some (.named "T" []))])),
                .mk {} { name := Source.Word.of? "rest", rest := true }
                  (some (.array (.named "T" [])))] }] },
    .enum {} "Size"
      [{ name := "small", initializer := some { text := "1", literal := some .number } },
        { name := "large" }]]

theorem Program.isBlocks_document_boxModule :
    let tree := Source.boxModule.toTree "box.ts"
    let program : Program := { units := [tree] }
    (∀ unit ∈ program.units, unit.Fits) ∧ tree ∈ program.units ∧
      ((tree.collect program.table).toOption.map fun comments => comments.written.length) = some 4 ∧
      ∃ text, program.document tree = .ok text ∧ IsBlocks text.toList := by
  intro tree program
  have hfits : ∀ unit ∈ program.units, unit.Fits := by decide +kernel
  have htree : tree ∈ program.units := List.mem_cons_self
  have hok : (program.document tree).isOk = true := by decide +kernel
  obtain ⟨text, hdocument⟩ := Error.exists_of_isOk hok
  exact ⟨hfits, htree, by decide +kernel, text, hdocument,
    program.isBlocks_document hfits htree hdocument⟩

/-- A variable whose initial value goes over several lines. -/
def spreadFile : SourceFile where
  path := "spread.ts"
  text := "let a = f(\n  1\n);"

/-- The further lines of the initial value have no margin in front of them. -/
theorem SourceFile.not_isBlocks_document_spreadFile :
    let text := "/**\n * @member \x7b*\x7d a\n * @default f(\n  1\n)\n */"
    spreadFile.document = .ok text ∧ ¬ IsBlocks text.toList := by
  intro text
  constructor
  · rw [← Error.toOption_eq_some]
    decide +kernel
  · intro hblocks
    have hline : "  1".toList ∈ Text.splitOn '\n' text.toList := by decide +kernel
    rcases hblocks.line hline with hempty | hfirst | hlast | hbody
    · exact absurd hempty (by decide)
    · exact absurd hfirst (by decide)
    · exact absurd hlast (by decide)
    · exact absurd hbody.margin (by decide)

end DocBlock
