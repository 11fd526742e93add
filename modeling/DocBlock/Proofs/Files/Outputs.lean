import Mathlib.Data.List.Nodup
import DocBlock.Output
import DocBlock.Proofs.Files.Writing

/-! # What the documentation files hold

Where documentation is written file by file, several source files can have output paths that lead to one
file: the ends of their names are taken off, and an output directory takes the place of their own. Each of
them is written there in its turn, and none of the others changes the file. So in the end it holds the
documentation of the last of them (`Program.read_outputPath`), which is that of the only one unless
outputs meet. -/

namespace DocBlock

open Files (FileTree Place Content)

/-- The documentation of a source file whose output path leads to a place. -/
def Program.textAt? (program : Program) (options : Options) (t : FileTree) (place : Place)
    (unit : Tree) : Option String :=
  match program.document unit with
  | .error _ => none
  | .ok text =>
    if t.locate true (options.outputPath ⟨unit.fileName⟩) = .ok (.there place) then some text else none

/-- The documentation of all source files whose output paths lead to a place, in order. -/
def Program.textsAt (program : Program) (options : Options) (t : FileTree) (place : Place) :
    List String :=
  program.units.filterMap (program.textAt? options t place)

theorem Program.textAt?_eq_some {program : Program} {options : Options} {t : FileTree} {place : Place}
    {unit : Tree} {text : String} :
    program.textAt? options t place unit = some text ↔
      program.document unit = .ok text ∧
        t.locate true (options.outputPath ⟨unit.fileName⟩) = .ok (.there place) := by
  unfold Program.textAt?
  cases program.document unit with
  | error e => simp
  | ok own => simp [and_comm]

namespace Writing

variable {program : Program} {options : Options} {w : Writing} {unit : Tree} {units : List Tree}
  {text : String} {place : Place} {content : Content}

/-! ## One source file -/

theorem addUnit_of_stopped (h : w.stopped.isSome = true) : w.addUnit program options unit = w := by
  rw [addUnit, if_pos h]

/-- What is done for one source file when nothing stops the writing: nothing, as it has no documentation,
or its documentation is written. -/
theorem addUnit_cases (hfile : options.outFile = none)
    (hgoes : (w.addUnit program options unit).stopped = none) :
    w.stopped = none ∧
      ((∃ e, program.document unit = .error e ∧ (w.addUnit program options unit).files = w.files) ∨
        ∃ text place, program.document unit = .ok text ∧
          w.files.Wrote (options.outputPath ⟨unit.fileName⟩) text
            (w.addUnit program options unit).files place) := by
  cases hstopped : w.stopped with
  | some cause =>
    rw [addUnit_of_stopped (by rw [hstopped]; rfl), hstopped] at hgoes
    cases hgoes
  | none =>
    refine ⟨rfl, ?_⟩
    have hnot : ¬ w.stopped.isSome = true := by rw [hstopped]; exact Bool.false_ne_true
    cases hdoc : program.document unit with
    | error e =>
      refine .inl ⟨e, rfl, ?_⟩
      simp only [addUnit, if_neg hnot, hdoc]
    | ok text =>
      have hstep : w.addUnit program options unit = w.write (options.outputPath ⟨unit.fileName⟩) text := by
        simp only [addUnit, if_neg hnot, hdoc, hfile]
        rfl
      rw [hstep, write] at hgoes ⊢
      cases hwrite : w.files.writeBelow (options.outputPath ⟨unit.fileName⟩) text with
      | error cause =>
        rw [hwrite] at hgoes
        cases hgoes
      | ok files =>
        obtain ⟨place, hwrote⟩ := FileTree.wrote_of_writeBelow hwrite
        exact .inr ⟨text, place, rfl, hwrote⟩

theorem stopped_of_foldl_addUnit (units : List Tree) : ∀ {w : Writing},
    (units.foldl (addUnit program options) w).stopped = none → w.stopped = none := by
  induction units with
  | nil => exact fun h => h
  | cons unit units ih =>
    intro w hgoes
    have hstep : (w.addUnit program options unit).stopped = none := ih hgoes
    cases hstopped : w.stopped with
    | none => rfl
    | some cause =>
      rw [addUnit_of_stopped (by rw [hstopped]; rfl), hstopped] at hstep
      cases hstep

/-! ## All source files -/

/-- What the writing of some source files makes of the files: the documentation of each of them can be
found, and each place holds the last documentation that was written there. -/
structure Settles (program : Program) (options : Options) (units : List Tree)
    (before after : FileTree) : Prop where
  grows : before.Extends after
  last : ∀ {place content}, before.entry? place = some (.file content) →
    after.entry? place = some (.file
      (((units.filterMap (program.textAt? options after place)).getLast?.map .text).getD content))
  leads : ∀ {unit text}, unit ∈ units → program.document unit = .ok text →
    ∃ place last, after.locate true (options.outputPath ⟨unit.fileName⟩) = .ok (.there place) ∧
      (units.filterMap (program.textAt? options after place)).getLast? = some last ∧
      after.entry? place = some (.file (.text last))

theorem getLast?_filterMap_cons {α β : Type} {f : α → Option β} {a : α} {l : List α} {last : β}
    (h : (l.filterMap f).getLast? = some last) : ((a :: l).filterMap f).getLast? = some last := by
  cases hf : f a with
  | none => rw [List.filterMap_cons_none hf, h]
  | some b => rw [List.filterMap_cons_some hf, List.getLast?_cons, h, Option.getD_some]

theorem Settles.cons_error {e : Error} {before after : FileTree}
    (h : Settles program options units before after) (hdoc : program.document unit = .error e) :
    Settles program options (unit :: units) before after := by
  have hnone : ∀ place, program.textAt? options after place unit = none := by
    intro place
    rw [Program.textAt?, hdoc]
  refine ⟨h.grows, ?_, ?_⟩
  · intro place content hentry
    rw [List.filterMap_cons_none (hnone place)]
    exact h.last hentry
  · intro unit' text hunit hok
    rcases List.mem_cons.1 hunit with rfl | hunit
    · rw [hdoc] at hok
      cases hok
    · obtain ⟨place, last, hplace, hlast, hentry⟩ := h.leads hunit hok
      exact ⟨place, last, hplace, getLast?_filterMap_cons hlast, hentry⟩

theorem Settles.cons_ok {before between after : FileTree}
    (h : Settles program options units between after) (hdoc : program.document unit = .ok text)
    (hwrote : before.Wrote (options.outputPath ⟨unit.fileName⟩) text between place) :
    Settles program options (unit :: units) before after := by
  have hplace := h.grows.locate hwrote.leads
  have hself : program.textAt? options after place unit = some text :=
    Program.textAt?_eq_some.2 ⟨hdoc, hplace⟩
  have hother : ∀ {q}, place ≠ q → program.textAt? options after q unit = none := by
    intro q hq
    rw [Option.eq_none_iff_forall_ne_some]
    intro text' htext
    have hboth := hplace.symm.trans (Program.textAt?_eq_some.1 htext).2
    exact hq (FileTree.Found.there.inj (Except.ok.inj hboth))
  have hnow : after.entry? place = some (.file (.text
      ((units.filterMap (program.textAt? options after place)).getLast?.getD text))) := by
    rw [h.last hwrote.holds, Option.getD_map]
  refine ⟨hwrote.grows.trans h.grows, ?_, ?_⟩
  · intro q content hentry
    by_cases hq : place = q
    · -- The text that is written here stays, unless a later source file writes here again.
      subst hq
      rw [List.filterMap_cons_some hself, List.getLast?_cons]
      exact hnow
    · rw [List.filterMap_cons_none (hother hq)]
      exact h.last (hwrote.others (Ne.symm hq) hentry)
  · intro unit' text' hunit hok
    rcases List.mem_cons.1 hunit with rfl | hunit
    · refine ⟨place, _, hplace, ?_, hnow⟩
      rw [List.filterMap_cons_some hself, List.getLast?_cons]
    · obtain ⟨q, last, hq, hlast, hentry⟩ := h.leads hunit hok
      refine ⟨q, last, hq, ?_, hentry⟩
      exact getLast?_filterMap_cons hlast

theorem settles_foldl_addUnit (hfile : options.outFile = none) (units : List Tree) :
    ∀ {w : Writing}, (units.foldl (addUnit program options) w).stopped = none →
      Settles program options units w.files (units.foldl (addUnit program options) w).files := by
  induction units with
  | nil =>
    intro w _
    exact ⟨.refl _, fun h => h, fun h => absurd h List.not_mem_nil⟩
  | cons unit units ih =>
    intro w hgoes
    have hrest := ih hgoes
    have hstep : (w.addUnit program options unit).stopped = none := stopped_of_foldl_addUnit units hgoes
    rcases (addUnit_cases hfile hstep).2 with ⟨e, hdoc, hsame⟩ | ⟨text, place, hdoc, hwrote⟩
    · rw [hsame] at hrest
      exact hrest.cons_error hdoc
    · exact hrest.cons_ok hdoc hwrote

end Writing

/-! ## The run -/

/-- When nothing stops the writing, the output path of a source file with documentation leads to a file
that reads, in the end, as the documentation of the last source file whose output path leads there; so it
is its own documentation unless other documentation goes to the same file. -/
theorem Program.read_outputPath (program : Program) (options : Options) (t : FileTree)
    (hfile : options.outFile = none) (hstopped : (program.write options t).stopped = none)
    {unit : Tree} (hunit : unit ∈ program.units) {text : String}
    (hdoc : program.document unit = .ok text) :
    let after := (program.write options t).files
    let output := options.outputPath ⟨unit.fileName⟩
    (∃ place last, after.locate true output = .ok (.there place) ∧
      (program.textsAt options after place).getLast? = some last ∧ after.read output = .ok last) ∧
    ((∀ other ∈ program.units, ∀ text', program.document other = .ok text' →
        after.locate true (options.outputPath ⟨other.fileName⟩) = after.locate true output →
        text' = text) →
      after.read output = .ok text) := by
  intro after output
  have hwrite : program.write options t = program.units.foldl (Writing.addUnit program options)
      { summary := { failed := program.failures }, files := t } := by
    rw [Program.write, Writing.finish, hfile]
  have hsettles := Writing.settles_foldl_addUnit hfile program.units (hwrite ▸ hstopped)
  rw [← hwrite] at hsettles
  obtain ⟨place, last, hplace, hlast, hentry⟩ := hsettles.leads hunit hdoc
  have hread : after.read output = .ok last := FileTree.read_of_locate hplace hentry
  refine ⟨⟨place, last, hplace, hlast, hread⟩, fun halone => ?_⟩
  obtain ⟨other, hother, htext⟩ := List.mem_filterMap.1 (List.mem_of_getLast? hlast)
  obtain ⟨hfrom, hsame⟩ := Program.textAt?_eq_some.1 htext
  rw [hread, halone other hother last hfrom (hsame.trans hplace.symm)]

/-- Three source files. The documentation of the first two has the same name. -/
def twinFiles : List SourceFile :=
  [⟨"a.ts", "export class A \x7b\x7d"⟩, ⟨"a.d.ts", "export declare class B \x7b\x7d"⟩,
    ⟨"c.ts", "export class C \x7b\x7d"⟩]

theorem Program.read_outputPath_twinFiles :
    let program := Program.ofFiles twinFiles
    let options : Options := { outDir := some ⟨"docs"⟩ }
    let after := (program.write options {}).files
    options.outFile = none ∧ (program.write options {}).stopped = none ∧
      ∃ unit ∈ program.units, program.document unit = .ok "/**\n * @class C\n */" ∧
        after.read (options.outputPath ⟨unit.fileName⟩) = .ok "/**\n * @class C\n */" := by
  intro program options after
  have hstopped : (program.write options {}).stopped = none := by decide +kernel
  have halone : ∃ unit ∈ program.units, program.document unit = .ok "/**\n * @class C\n */" ∧
      ∀ other ∈ program.units,
        after.locate true (options.outputPath ⟨other.fileName⟩) =
          after.locate true (options.outputPath ⟨unit.fileName⟩) →
        program.document other = .ok "/**\n * @class C\n */" := by
    decide +kernel
  obtain ⟨unit, hunit, hdoc, hothers⟩ := halone
  refine ⟨rfl, hstopped, unit, hunit, hdoc,
    (program.read_outputPath options {} rfl hstopped hunit hdoc).2 ?_⟩
  intro other hother text' hdoc' hsame
  exact Except.ok.inj (hdoc'.symm.trans (hothers other hother hsame))

/-- The documentation of the first file is lost, although nothing stops the writing. -/
theorem Program.lost_twinFiles :
    let program := Program.ofFiles twinFiles
    let after := (program.write {} {}).files
    (program.units.map (·.fileName)).Nodup ∧ (program.write {} {}).stopped = none ∧
      ∃ unit ∈ program.units, program.document unit = .ok "/**\n * @class A\n */" ∧
        after.read (({} : Options).outputPath ⟨unit.fileName⟩) = .ok "/**\n * @class B\n */" := by
  decide +kernel

end DocBlock
