/-
# Analyses of runs without arcs

A run that does not measure branches records no arc. An analysis does not know
this: it looks at arcs when the reporter knows any, and then takes every possible
one that no recorded arc is translated to for missing. The main statement says
what the counts and the text of such an analysis are, and when they show no
branch: when the reporter knows no arc, or none that is a branch.

The last section has a run in which every statement ran and whose text shows two
missing branches all the same.
-/
import Coverage.Proofs.Activation.Recording
import Coverage.Proofs.Analysis.Percentage
import Coverage.Proofs.Analysis.Rendering
import Mathlib.Algebra.Group.Int.Defs

namespace Coverage

/-! ## Lines of a file -/

/-- The lines are ones that a file can have: numbers of 32 bits. -/
def LineSet.IsBounded (lines : LineSet) : Prop :=
  ∀ line ∈ lines, -2 ^ 31 ≤ line ∧ line < 2 ^ 31

/-- Different lines between two bounds are no more than there are numbers between them. -/
theorem length_le_of_ascending {lines : List Int} {first last : Int}
    (hascending : lines.Pairwise fun a b => compare a b = .lt)
    (hbounds : ∀ line ∈ lines, first ≤ line ∧ line < last) :
    lines.length ≤ (last - first).toNat := by
  induction lines generalizing first with
  | nil => exact Nat.zero_le _
  | cons line lines ih =>
    obtain ⟨hbelow, htail⟩ := List.pairwise_cons.1 hascending
    have hline := hbounds line List.mem_cons_self
    have hlength : lines.length ≤ (last - (line + 1)).toNat := by
      apply ih htail
      intro other hother
      have hlt : line < other := Int.compare_eq_lt.1 (hbelow other hother)
      have hother := hbounds other (List.mem_cons_of_mem _ hother)
      omega
    rw [List.length_cons]
    omega

theorem LineSet.IsBounded.size_le {lines : LineSet} (h : lines.IsBounded) :
    lines.size ≤ 2 ^ 32 :=
  length_le_of_ascending lines.ascending h

/-! ## Runs without branches -/

namespace Collector

variable {σ : Type} (host : Host) (plugins : Registry σ) (events : List Event) (world : σ)

/-- A run that does not measure branches records no arc. -/
theorem arcs_run_eq_empty (source : Path) :
    ((start host plugins false).run events world).1.data.arcs source = ∅ := by
  ext arc
  constructor
  · intro harc
    obtain ⟨label, harc⟩ := CoverageData.mem_arcs_iff.1 harc
    have hbranch := ((follows_run host plugins false events world).arcs source label arc).1 harc
    rw [branch_run] at hbranch
    cases hbranch.1
  · intro harc
    exact absurd harc (SortedSet.not_mem_empty arc)

end Collector

namespace Analysis

open Collector

/-- All of a file ran when no statement is missing and it has no branches. -/
theorem percentCovered_eq_hundred_of {a : Analysis} (ha : a.LooksAtArcs)
    (hmissing : a.missing = ∅) (hbranches : ∀ arc, arc ∉ a.branchArcs)
    (hbounded : a.statements.IsBounded) : a.percentCovered = 100.0 := by
  obtain ⟨hcount, -, hnone⟩ := ha.counts_eq_zero_iff.2 hbranches
  apply Numbers.percentCovered_eq_hundred
  · change a.missing.size = 0
    rw [hmissing]
    rfl
  · exact hnone
  · have hsize : a.numbers.statements ≤ 2 ^ 32 := hbounded.size_le
    omega

/-- An analysis of a run that measured no branches shows the branches that its
reporter knows, and as missing those that nothing is translated to. The counts of
branches are zero exactly when there is none, and the text is one of runs alone
exactly when every missing branch starts at a line that is itself missing. When
every statement ran, the text is empty if no branch is missing, and the percentage
is a hundred if there is no branch. -/
theorem analysis_of_run_without_branches {σ : Type} (host : Host) (plugins : Registry σ)
    (events : List Event) (world : σ) (reporter : Reporter) :
    let data := ((start host plugins false).run events world).1.data
    (∀ source, data.arcs source = ∅) ∧
    ((∃ a, compute reporter data = .ok a) ↔ reporter.Answers) ∧
    ∀ a, compute reporter data = .ok a →
      let missed := a.branchArcs \ reporter.translateArcs ∅
      (a.numbers.branches = a.branchArcs.size ∧ a.numbers.missingBranches = missed.size ∧
        a.numbers.partialBranches = (missed.sources \ a.missing).size) ∧
      (a.numbers.branches = 0 ∧ a.numbers.partialBranches = 0 ∧ a.numbers.missingBranches = 0 ↔
        ∀ arc, arc ∉ a.branchArcs) ∧
      (reporter.arcs = .ok ∅ → ∀ arc, arc ∉ a.branchArcs) ∧
      '>' ∉ a.renderRuns.toList ∧
      ('>' ∈ a.renderMissing.toList ↔ ∃ arc ∈ missed, arc.source ∉ a.missing) ∧
      (a.renderMissing = a.renderRuns ↔ ∀ arc ∈ missed, arc.source ∈ a.missing) ∧
      (a.missing = ∅ → (a.renderMissing = "" ↔ ∀ arc, arc ∉ missed) ∧
        ((∀ arc, arc ∉ a.branchArcs) → a.statements.IsBounded → a.percentCovered = 100.0)) := by
  intro data
  have hdata := arcs_run_eq_empty host plugins events world
  refine ⟨hdata, exists_ofRecorded_iff, ?_⟩
  intro a hcompute missed
  rw [compute, hdata] at hcompute
  have ha := looksAtArcs_of_ofRecorded hcompute
  have hmissed : a.missingBranches = missed := missingBranches_eq_of_ofRecorded hcompute
  refine ⟨?_, ha.counts_eq_zero_iff, ?_, arrow_notMem_renderRuns, ?_, ?_, ?_⟩
  · rw [ha.branches_numbers, ha.missingBranches_numbers, ha.partialBranches_numbers, hmissed]
    exact ⟨rfl, rfl, rfl⟩
  · intro harcs arc harc
    have hpossible : a.possibleArcs = ∅ :=
      Except.ok.inj ((arcs_eq_of_ofRecorded hcompute).symm.trans harcs)
    have hmem := (mem_branchArcs.1 harc).1
    rw [hpossible] at hmem
    exact SortedSet.not_mem_empty arc hmem
  · rw [arrow_mem_renderMissing ha, hmissed]
  · rw [renderMissing_eq_renderRuns_iff ha, hmissed]
  · intro hmissing
    constructor
    · rw [renderMissing_eq_empty_iff ha hmissing, hmissed]
    · exact percentCovered_eq_hundred_of ha hmissing

/-! ## A page with two ways on -/

namespace Page

/-- A template page. Its first line goes on to the second or to the third. -/
def source : Path := ⟨"/s/page"⟩

/-- What is known of the page. -/
def reporter : Reporter where
  host := ⟨∅, []⟩
  filename := source
  lines := .ok (.ofList [1, 2, 3])
  arcs := .ok (.ofList [⟨1, 2⟩, ⟨1, 3⟩])

/-- A plug-in that traces the module which a page is compiled to, line by line. -/
def tracing : Plugin Unit where
  identity := "page"
  typeName := "Pages"
  fileTracer _ := Hook.answer (some { sourceFilename := fun world => (source, world) })

/-- The plug-ins of a run. -/
def plugins : Registry Unit := (∅ : Registry Unit).register "site" .fileTracer tracing

/-- The compiled module at a line. -/
def frame (line : Int) : Frame := ⟨⟨"/b/page.py"⟩, line, "render"⟩

/-- The module runs all three lines. -/
def events : List Event :=
  [.call (frame 1), .line (frame 1), .line (frame 2), .line (frame 3), .ret (frame 3)]

/-- What was recorded without measuring branches. -/
def data : CoverageData := ((start ⟨∅, []⟩ plugins false).run events ()).1.data

/-- The analysis of the page. -/
def analysis : Analysis where
  filename := source
  statements := .ofList [1, 2, 3]
  excluded := ∅
  executed := .ofList [1, 2, 3]
  missing := ∅
  unpredicted := ∅
  hasArcs := true
  possibleArcs := .ofList [⟨1, 2⟩, ⟨1, 3⟩]
  executedArcs := ∅
  exitCounts := (∅ : ExitCounts).insert 1 2
  noBranch := ∅

/-- No branches were measured and every statement ran, and two branches of the
page are missing all the same. -/
theorem shows_missing_branches :
    source ∈ data.measuredFiles ∧ compute reporter data = .ok analysis ∧ analysis.missing = ∅ ∧
      analysis.numbers.branches = 2 ∧ analysis.numbers.partialBranches = 1 ∧
      analysis.numbers.missingBranches = 2 ∧ analysis.renderMissing = "1->2, 1->3" ∧
      analysis.percentCovered ≠ 100.0 := by
  have hdata : source ∈ data.measuredFiles := by decide +kernel
  have hcompute : compute reporter data = .ok analysis := by rfl
  refine ⟨hdata, hcompute, rfl, ?_, ?_, ?_, ?_, ?_⟩ <;> decide +kernel

end Page

end Analysis

end Coverage
