import DocBlock.Proofs.Symbol.Table

/-! # The order of the files does not show

A pass asks the symbol table for nothing but the dotted names that references reach. So two tables in
which the same names are declared give the same documentation of every file, or the same failure
(`collect_eq`); in particular it does not matter in which order the files of a program are read, nor
which of several declarations of one dotted name is the one that is found. -/

namespace DocBlock

variable {table table' : SymbolTable}

/-! ## Types -/

namespace Tree

mutual

theorem resolveExpr_eq (h : table.SameNames table') (t : Tree) (owner : NodeId) :
    ∀ type, t.resolveExpr table owner type = t.resolveExpr table' owner type
  | .intrinsic text => by simp only [resolveExpr]
  | .query text => by simp only [resolveExpr]
  | .other text => by simp only [resolveExpr]
  | .object node => by simp only [resolveExpr]
  | .function node => by simp only [resolveExpr]
  | .union members => by simp only [resolveExpr, resolveExprs_eq h t owner members]
  | .array element => by simp only [resolveExpr, resolveExpr_eq h t owner element]
  | .reference name args => by
    -- The symbol that is found may differ, but only its dotted name is written.
    have hbase : (table.resolve? t owner name).elim name (fun symbol => unquoted symbol.dotted) =
        (table'.resolve? t owner name).elim name fun symbol => unquoted symbol.dotted := by
      have hdotted := congrArg (fun dotted => Option.elim dotted name unquoted)
        (h.dotted_resolve? t owner name)
      simpa only [Option.elim_map, Function.comp_def] using hdotted
    simp only [resolveExpr, resolveExprs_eq h t owner args, hbase]

theorem resolveExprs_eq (h : table.SameNames table') (t : Tree) (owner : NodeId) :
    ∀ types, t.resolveExprs table owner types = t.resolveExprs table' owner types
  | [] => by simp only [resolveExprs]
  | type :: types => by
    simp only [resolveExprs, resolveExpr_eq h t owner type, resolveExprs_eq h t owner types]

end

/-- The type of a declaration is named the same. What is inferred without an annotation does not come
from the table. -/
theorem resolveTypeName_eq (h : table.SameNames table') (t : Tree) (node : NodeId) :
    t.resolveTypeName table node (t.decl node).annotation? (t.typeOf? table node) =
      t.resolveTypeName table' node (t.decl node).annotation? (t.typeOf? table' node) := by
  cases hannotation : (t.decl node).annotation? with
  | some type => exact resolveExpr_eq h t node type
  | none => simp only [resolveTypeName, typeOf?, hannotation]

end Tree

/-! ## Builders -/

namespace Synthesis

theorem typeWithin_eq (h : table.SameNames table') (t : Tree) (depth : Nat) :
    typeWithin t table depth = typeWithin t table' depth := by
  induction depth with
  | zero => rfl
  | succ depth ih =>
    funext node
    simp only [typeWithin, ih, t.resolveTypeName_eq h node]

theorem typeFor_eq (h : table.SameNames table') (t : Tree) : typeFor t table = typeFor t table' := by
  funext node
  simp only [typeFor, typeWithin_eq h]

theorem addFromSignature_eq (h : table.SameNames table') (t : Tree) :
    addFromSignature t table = addFromSignature t table' := by
  funext id s
  simp only [addFromSignature, typeFor_eq h]

theorem addTypedName_eq (h : table.SameNames table') (t : Tree) :
    addTypedName t table = addTypedName t table' := by
  funext id kind node
  simp only [addTypedName, typeFor_eq h]

theorem addTypedefProperty_eq (h : table.SameNames table') (t : Tree) :
    addTypedefProperty t table = addTypedefProperty t table' := by
  funext id node
  simp only [addTypedefProperty, typeFor_eq h]

theorem addHeritage_eq (h : table.SameNames table') (t : Tree) :
    addHeritage t table = addHeritage t table' := by
  funext id node
  simp only [addHeritage, Tree.resolveTypeName, Tree.resolveExpr_eq h t node]

/-! ## Declarations -/

theorem documentInterface_eq (h : table.SameNames table') (t : Tree) (node : NodeId)
    (decl : Interface) : documentInterface t table node decl = documentInterface t table' node decl := by
  simp only [documentInterface, addCallbacks, addSignatureEntries, addFromSignature_eq h,
    addHeritage_eq h]

theorem document_eq (h : table.SameNames table') (t : Tree) : document t table = document t table' := by
  funext node
  unfold document
  simp only [documentVariable, documentFunction, documentConstructor, documentClass, documentAlias,
    documentInterface_eq h, addTypedName_eq h, addTypedefProperty_eq h, addFromSignature_eq h,
    addHeritage_eq h]

end Synthesis

/-- Tables with the same names give the same entries, or the same failure. -/
theorem Tree.collect_eq (h : table.SameNames table') (t : Tree) :
    t.collect table = t.collect table' := by
  simp only [collect, runPass, Synthesis.documentAll, Synthesis.document_eq h]

/-- The order of the files does not matter. Two programs that declare the same dotted names document
every file alike, with the same entries and the same text or the same failure; and two programs with the
same files in different orders declare the same dotted names. -/
theorem Program.document_congr (program program' : Program) (tree : Tree) :
    (program.table.SameNames program'.table →
      tree.collect program.table = tree.collect program'.table ∧
        program.document tree = program'.document tree) ∧
    (program.units.Perm program'.units →
      program.table.SameNames program'.table ∧
        tree.collect program.table = tree.collect program'.table ∧
        program.document tree = program'.document tree) := by
  have hsame : program.table.SameNames program'.table →
      tree.collect program.table = tree.collect program'.table ∧
        program.document tree = program'.document tree := by
    intro hnames
    have hcollect := tree.collect_eq hnames
    refine ⟨hcollect, ?_⟩
    rw [document, document, hcollect]
  refine ⟨hsame, fun hperm => ?_⟩
  have hnames : program.table.SameNames program'.table := SymbolTable.sameNames_of_perm hperm
  exact ⟨hnames, hsame hnames⟩

/-- An ambient module inside another one, with a class. -/
def Source.nestedModule : Source.ModuleForm where
  items := [.namespaceDecl {} "a" true [.namespaceDecl {} "x" true [.classDecl {} "Box" {}]]]

/-- An ambient module whose name has quotes in it, with a class of the same dotted name and a variable of
that class. -/
def Source.quotedModule : Source.ModuleForm where
  items :=
    [.namespaceDecl {} "a\".\"x" true
      [.classDecl {} "Box" {}, .variable {} "box" none (some (.named "Box" []))]]

/-- Which of the two classes is found depends on the order of the files, the documentation does not. -/
theorem Program.document_congr_quotedModule :
    let first := Source.nestedModule.toTree "first.ts"
    let second := Source.quotedModule.toTree "second.ts"
    let forth : Program := { units := [first, second] }
    let back : Program := { units := [second, first] }
    forth.table.resolve? second 3 "Box" = some { name := "Box", container := ["\"a\".\"x\""] } ∧
      back.table.resolve? second 3 "Box" = some { name := "Box", container := ["\"a\"", "\"x\""] } ∧
      forth.document second = back.document second ∧
      (forth.document second).toOption = some ("/**\n * @module a\".\"x\n */\n\n" ++
        "/**\n * @class Box\n * @memberof module:a.x\n */\n\n" ++
        "/**\n * @member \x7ba.x.Box\x7d box\n * @memberof module:a.x\n */") := by
  intro first second forth back
  have hperm : forth.units.Perm back.units := List.Perm.swap second first []
  have hsame := (document_congr forth back second).2 hperm
  have hnames := (document_congr forth back second).1 hsame.1
  exact ⟨by decide +kernel, by decide +kernel, hnames.2, by decide +kernel⟩

end DocBlock
