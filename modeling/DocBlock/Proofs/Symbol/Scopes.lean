import DocBlock.Proofs.Decl.Preorder
import DocBlock.Proofs.Source.Placed
import DocBlock.Proofs.Symbol.Table

/-! # What a reference reaches

The symbols of a program are what its files declare at their own level and in their modules, each under
the names of the modules around it (`SymbolTable.declared_iff`). A reference is looked up behind the names
of all modules around the place where it is written, then behind fewer and fewer of them. So it reaches
something just when some file declares its text behind some outer part of these names, and then what is
declared behind the longest such part (`Program.resolve?_reaches`). -/

namespace DocBlock

/-! ## Declared names -/

/-- Whether a declaration is of a kind that type references can name. -/
def Decl.isNameable : Decl → Bool
  | .classDecl _ => true
  | .interface _ => true
  | .enum _ => true
  | .typeAlias _ => true
  | .namespaceDecl _ => true
  | .callable .function _ => true
  | .variableDecl .standalone _ => true
  | _ => false

/-- The name of a module, which is in quotes when the module is an ambient one. -/
def Decl.moduleName? : Decl → Option String
  | .namespaceDecl n => some (if n.external then "\"" ++ n.name ++ "\"" else n.name)
  | _ => none

/-- A name behind the names of some modules. -/
def dottedName (modules : List String) (name : String) : String :=
  Text.joinStrings "." (modules ++ [name])

namespace Tree

variable {t : Tree} {i : NodeId} {nodes : List NodeId} {dotted : String}

/-- The names of the modules among some nodes that are given innermost first, outermost first. -/
def modules (t : Tree) (nodes : List NodeId) : List String :=
  (nodes.filterMap fun i => (t.decl i).moduleName?).reverse

/-- Whether a file declares a dotted name at its own level or in its modules. -/
def Declares (t : Tree) (dotted : String) : Prop :=
  ∃ i < t.size, (t.decl i).isNameable = true ∧
    (∀ a ∈ t.ancestors i, ((t.decl a).isNamespace || (t.decl a).isFile) = true) ∧
    ∃ name, (t.decl i).symbolName? = some name ∧ dottedName (t.modules (t.ancestors i)) name = dotted

theorem isReferable_eq (t : Tree) (i : NodeId) : t.isReferable i =
    ((t.decl i).isNameable && (t.ancestors i).all fun a => (t.decl a).isNamespace || (t.decl a).isFile) :=
  rfl

theorem scopeNames_isNamespace (t : Tree) (nodes : List NodeId) :
    (t.scopeNames Decl.isNamespace nodes).reverse = t.modules nodes := by
  rw [scopeNames, modules, List.filterMap_filter]
  congr 2
  funext a
  cases t.decl a <;> rfl

/-- Among modules and files the named scopes are the modules. -/
theorem scopeNames_isNamedScope
    (h : ∀ a ∈ nodes, ((t.decl a).isNamespace || (t.decl a).isFile) = true) :
    (t.scopeNames Decl.isNamedScope nodes).reverse = t.modules nodes := by
  rw [← scopeNames_isNamespace, scopeNames, scopeNames]
  congr 2
  refine List.filter_congr fun a ha => ?_
  have houter := h a ha
  cases hdecl : t.decl a with
  | file moduleName => rfl
  | namespaceDecl n => rfl
  | _ =>
    rw [hdecl] at houter
    cases houter

/-- The symbol of a declaration at the level of a file or module. -/
theorem dotted_symbol? (h : ∀ a ∈ t.ancestors i, ((t.decl a).isNamespace || (t.decl a).isFile) = true) :
    (t.symbol? i).map Symbol.dotted =
      (t.decl i).symbolName?.map (dottedName (t.modules (t.ancestors i))) := by
  rw [symbol?, Option.map_map, scopeNames_isNamedScope h]
  rfl

/-- The symbols of a file have just the names that the file declares. -/
theorem Rooted.declares_iff (hr : t.Rooted) :
    t.Declares dotted ↔ ∃ symbol ∈ t.referableSymbols, symbol.dotted = dotted := by
  constructor
  · rintro ⟨i, hi, hkind, houter, name, hname, hdotted⟩
    have hmap := dotted_symbol? houter
    rw [hname] at hmap
    obtain ⟨symbol, hsymbol, hsame⟩ := Option.map_eq_some_iff.1 hmap
    refine ⟨symbol, ?_, hsame.trans hdotted⟩
    refine List.mem_filterMap.2 ⟨i, List.mem_filter.2 ⟨hr.mem_preorder.2 hi, ?_⟩, hsymbol⟩
    rw [isReferable_eq, hkind, Bool.true_and, List.all_eq_true]
    exact houter
  · rintro ⟨symbol, hmem, hdotted⟩
    obtain ⟨i, hi, hsymbol⟩ := List.mem_filterMap.1 hmem
    obtain ⟨hpreorder, hreferable⟩ := List.mem_filter.1 hi
    rw [isReferable_eq, Bool.and_eq_true, List.all_eq_true] at hreferable
    have hmap := dotted_symbol? hreferable.2
    rw [hsymbol] at hmap
    obtain ⟨name, hname, hsame⟩ := Option.map_eq_some_iff.1 hmap.symm
    exact ⟨i, hr.mem_preorder.1 hpreorder, hreferable.1, hreferable.2, name, hname, hsame.trans hdotted⟩

end Tree

/-- Whether some file of a program declares a dotted name. -/
def Program.Declares (program : Program) (dotted : String) : Prop :=
  ∃ unit ∈ program.units, unit.Declares dotted

namespace SymbolTable

variable {table : SymbolTable} {scopes : List String} {name : String} {symbol : Symbol}

/-- A table finds just what is declared. -/
theorem declared_iff {program : Program} (hrooted : ∀ unit ∈ program.units, unit.Rooted)
    (dotted : String) : (program.table.find? dotted).isSome = true ↔ program.Declares dotted := by
  rw [isSome_find?_iff]
  constructor
  · rintro ⟨symbol, hmem, hdotted⟩
    obtain ⟨unit, hunit, hsymbol⟩ := List.mem_flatMap.1 hmem
    exact ⟨unit, hunit, (hrooted unit hunit).declares_iff.2 ⟨symbol, hsymbol, hdotted⟩⟩
  · rintro ⟨unit, hunit, hdeclares⟩
    obtain ⟨symbol, hsymbol, hdotted⟩ := (hrooted unit hunit).declares_iff.1 hdeclares
    exact ⟨symbol, List.mem_flatMap.2 ⟨unit, hunit, hsymbol⟩, hdotted⟩

/-! ## From the innermost scope outwards -/

/-- A search from the last number downwards ends at the last one that gives something. -/
theorem exists_last_of_findSome? {β : Type} {g : Nat → Option β} {n : Nat} {b : β}
    (h : (List.range n).reverse.findSome? g = some b) :
    ∃ d < n, g d = some b ∧ ∀ e < n, d < e → g e = none := by
  induction n with
  | zero => cases h
  | succ n ih =>
    rw [List.range_succ, List.reverse_append, List.reverse_singleton, List.singleton_append,
      List.findSome?_cons] at h
    cases hn : g n with
    | some found =>
      rw [hn] at h
      exact ⟨n, Nat.lt_succ_self n, hn.trans h, fun e he hlt => by omega⟩
    | none =>
      rw [hn] at h
      obtain ⟨d, hd, hfound, hlast⟩ := ih h
      refine ⟨d, Nat.lt_succ_of_lt hd, hfound, fun e he hlt => ?_⟩
      rcases Nat.lt_succ_iff_lt_or_eq.1 he with hbefore | rfl
      · exact hlast e hbefore hlt
      · exact hn

/-- A look-up finds what is declared behind some outer part of the scopes. -/
theorem isSome_lookup?_iff : (table.lookup? scopes name).isSome = true ↔
    ∃ outer, outer <+: scopes ∧ (table.find? (dottedName outer name)).isSome = true := by
  rw [lookup?, List.findSome?_isSome_iff]
  constructor
  · rintro ⟨depth, -, hfound⟩
    exact ⟨scopes.take depth, List.take_prefix depth scopes, hfound⟩
  · rintro ⟨outer, hprefix, hfound⟩
    rw [List.prefix_iff_eq_take] at hprefix
    refine ⟨outer.length, ?_, ?_⟩
    · rw [List.mem_reverse, List.mem_range]
      have hlength := congrArg List.length hprefix
      rw [List.length_take] at hlength
      omega
    · rw [← hprefix]
      exact hfound

/-- What a look-up finds is declared behind the longest outer part of the scopes behind which something
is declared. -/
theorem longest_of_lookup? (h : table.lookup? scopes name = some symbol) :
    ∃ outer, outer <+: scopes ∧ table.find? (dottedName outer name) = some symbol ∧
      ∀ other, other <+: scopes → (table.find? (dottedName other name)).isSome = true →
        other.length ≤ outer.length := by
  obtain ⟨depth, hdepth, hfound, hlast⟩ := exists_last_of_findSome? h
  refine ⟨scopes.take depth, List.take_prefix depth scopes, hfound, ?_⟩
  intro other hprefix hother
  rw [List.length_take, Nat.min_eq_left (by omega)]
  by_contra hlonger
  -- A longer part would have been tried before.
  have htake := List.prefix_iff_eq_take.1 hprefix
  have hle := hprefix.length_le
  have hnone := hlast other.length (by omega) (by omega)
  rw [← htake] at hnone
  rw [dottedName, hnone] at hother
  cases hother

end SymbolTable

/-! ## References -/

/-- What a reference reaches in a program of rooted trees, which the trees of files are. It reaches
something just when its text is declared behind the names of some outer part of the modules around it, and
then the symbol has the dotted name behind the longest such part. -/
theorem Program.resolve?_reaches (program : Program) (hrooted : ∀ unit ∈ program.units, unit.Rooted)
    (t : Tree) (owner : NodeId) (reference : String) :
    let around := t.modules (t.lineage owner)
    ((program.table.resolve? t owner reference).isSome = true ↔
        ∃ outer, outer <+: around ∧ program.Declares (dottedName outer reference)) ∧
      ∀ symbol, program.table.resolve? t owner reference = some symbol →
        ∃ outer, outer <+: around ∧ program.Declares (dottedName outer reference) ∧
          symbol.dotted = dottedName outer reference ∧
          ∀ other, other <+: around → program.Declares (dottedName other reference) →
            other.length ≤ outer.length := by
  intro around
  have hresolve : program.table.resolve? t owner reference = program.table.lookup? around reference := by
    rw [SymbolTable.resolve?, Tree.scopeNames_isNamespace]
  rw [hresolve]
  constructor
  · simp only [SymbolTable.isSome_lookup?_iff, SymbolTable.declared_iff hrooted]
  · intro symbol hsymbol
    obtain ⟨outer, hprefix, hfound, hlongest⟩ := SymbolTable.longest_of_lookup? hsymbol
    refine ⟨outer, hprefix, ?_, SymbolTable.dotted_of_find? hfound, ?_⟩
    · rw [← SymbolTable.declared_iff hrooted, hfound]
      rfl
    · intro other hother hdeclares
      exact hlongest other hother ((SymbolTable.declared_iff hrooted _).2 hdeclares)

/-- A module with a class, and with another class of the same name inside two modules. -/
def Source.shadowingModule : Source.ModuleForm where
  items :=
    [.classDecl {} "T" {},
    .namespaceDecl {} "pkg" true [.namespaceDecl {} "A" false
      [.classDecl {} "T" {}, .variable {} "x" none (some (.named "T" []))]]]

/-- From the variable in the inner module the reference reaches the class beside it. -/
theorem Program.resolve?_reaches_shadowingModule :
    let t := Source.shadowingModule.toTree "pkg.ts"
    let program : Program := { units := [t] }
    (∀ unit ∈ program.units, unit.Rooted) ∧ t.modules (t.lineage 5) = ["\"pkg\"", "A"] ∧
      program.Declares (dottedName [] "T") ∧
      ∃ symbol, program.table.resolve? t 5 "T" = some symbol ∧ symbol.dotted = "\"pkg\".A.T" := by
  intro t program
  have hrooted : ∀ unit ∈ program.units, unit.Rooted := by
    intro unit hunit
    rw [List.mem_singleton.1 hunit]
    exact (Source.shadowingModule.placed_toTree "pkg.ts").toRooted
  have hmodules : t.modules (t.lineage 5) = ["\"pkg\"", "A"] := by decide +kernel
  have houter : program.Declares (dottedName [] "T") :=
    ⟨t, List.mem_singleton_self t, 1, by decide +kernel, by decide +kernel, by decide +kernel, "T",
      by decide +kernel, by decide +kernel⟩
  have hinner : program.Declares (dottedName ["\"pkg\"", "A"] "T") :=
    ⟨t, List.mem_singleton_self t, 4, by decide +kernel, by decide +kernel, by decide +kernel, "T",
      by decide +kernel, by decide +kernel⟩
  obtain ⟨hreached, hsymbol⟩ := program.resolve?_reaches hrooted t 5 "T"
  rw [hmodules] at hreached hsymbol
  obtain ⟨symbol, hfound⟩ := Option.isSome_iff_exists.1
    (hreached.2 ⟨["\"pkg\"", "A"], List.prefix_rfl, hinner⟩)
  obtain ⟨outer, hprefix, -, hdotted, hlongest⟩ := hsymbol symbol hfound
  -- No outer part of the two names is longer than both of them.
  have hlength := hlongest ["\"pkg\"", "A"] List.prefix_rfl hinner
  have hboth : outer = ["\"pkg\"", "A"] := hprefix.eq_of_length_le hlength
  refine ⟨hrooted, hmodules, houter, symbol, hfound, hdotted.trans ?_⟩
  rw [hboth]
  decide +kernel

end DocBlock
