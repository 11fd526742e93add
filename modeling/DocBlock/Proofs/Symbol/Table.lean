import Mathlib.Data.List.Perm.Basic
import DocBlock.Program

/-! # What a symbol table answers

A look-up by a dotted name gives a symbol of that dotted name, so the symbol itself says no more than
that there is one. Tables in which the same names are declared (`SameNames`) therefore send a reference
to the same dotted name (`SameNames.dotted_resolve?`), and the order in which the files of a program are
read does not change which names are declared (`sameNames_of_perm`). -/

namespace DocBlock.SymbolTable

variable {table table' : SymbolTable} {name : String} {symbol : Symbol}

theorem dotted_of_find? (h : table.find? name = some symbol) : symbol.dotted = name := by
  have hfound := List.find?_some h
  exact beq_iff_eq.1 hfound

/-- A name is found just when it is declared. -/
theorem isSome_find?_iff : (table.find? name).isSome = true ↔ ∃ s ∈ table.symbols, s.dotted = name := by
  rw [find?, List.find?_isSome]
  simp only [List.mem_reverse, beq_iff_eq]

/-! ## Tables with the same names -/

/-- Two tables in which the same names are declared. -/
def SameNames (table table' : SymbolTable) : Prop :=
  ∀ name, (table.find? name).isSome = (table'.find? name).isSome

theorem SameNames.dotted_find? (h : table.SameNames table') (name : String) :
    (table.find? name).map Symbol.dotted = (table'.find? name).map Symbol.dotted := by
  have hsame := h name
  cases hfirst : table.find? name with
  | none =>
    rw [hfirst] at hsame
    have hsecond : table'.find? name = none := by simpa using hsame.symm
    rw [hsecond]
  | some symbol =>
    rw [hfirst] at hsame
    obtain ⟨symbol', hsecond⟩ := Option.isSome_iff_exists.1 hsame.symm
    rw [hsecond, Option.map_some, Option.map_some, dotted_of_find? hfirst, dotted_of_find? hsecond]

theorem SameNames.dotted_lookup? (h : table.SameNames table') (scopes : List String) (name : String) :
    (table.lookup? scopes name).map Symbol.dotted = (table'.lookup? scopes name).map Symbol.dotted := by
  simp only [lookup?, List.map_findSome?, Function.comp_def, h.dotted_find?]

/-- A reference reaches the same dotted name, whichever declaration of it the table holds. -/
theorem SameNames.dotted_resolve? (h : table.SameNames table') (t : Tree) (owner : NodeId)
    (name : String) : (table.resolve? t owner name).map Symbol.dotted =
      (table'.resolve? t owner name).map Symbol.dotted :=
  h.dotted_lookup? _ name

/-- The order of the files does not matter for the names that they declare. -/
theorem sameNames_of_perm {trees trees' : List Tree} (h : trees.Perm trees') :
    (ofTrees trees).SameNames (ofTrees trees') := by
  intro name
  have hsymbols : (ofTrees trees).symbols.Perm (ofTrees trees').symbols := h.flatMap_right _
  rw [Bool.eq_iff_iff, isSome_find?_iff, isSome_find?_iff]
  constructor
  · rintro ⟨symbol, hmem, hdotted⟩
    exact ⟨symbol, hsymbols.mem_iff.1 hmem, hdotted⟩
  · rintro ⟨symbol, hmem, hdotted⟩
    exact ⟨symbol, hsymbols.mem_iff.2 hmem, hdotted⟩

end DocBlock.SymbolTable
