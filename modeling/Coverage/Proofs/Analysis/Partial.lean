/-
# Lines that took some of their exits

A line is partial, and its missing branches are written, when it is not missing and a
branch from it is. For a statement this says that the line ran and did not take all of
its exits. A line that is left out, or that is not executable, is no statement and so
never missing, and it is partial with its first branch that did not run, whether the
line ran or not.

The main statement says what lines are partial and when all of them ran. The last
section has a page that leaves out the line its branches start from.
-/
import Coverage.Proofs.Analysis.Accounting
import Coverage.Proofs.Analysis.Rendering

namespace Coverage

namespace Analysis

/-! ## The parts of the text -/

/-- The ranges that are written, those of the runs of missing statements. -/
def runRanges (a : Analysis) : List (Int × Int) :=
  missingRuns a.missing none a.statements.toList

/-- The texts of the ranges that are written. -/
def runTexts (a : Analysis) : List String := a.runRanges.map renderRun

/-- The missing branches that are written, in order. -/
def writtenBranches (a : Analysis) : List Arc :=
  if a.hasArcs then (ungrouped a.missingBranchArcs).filter fun arc => arc.source ∉ a.missing
  else []

/-- The texts of the missing branches that are written. -/
def branchTexts (a : Analysis) : List String :=
  a.writtenBranches.map fun arc => renderArc arc.source arc.target

variable {a : Analysis}

/-- Groups by line are written arc by arc. -/
theorem flatMap_renderArc (p : Int → Bool) (groups : List (Int × List Int)) :
    (groups.filter fun group => p group.1).flatMap (fun group => group.2.map (renderArc group.1)) =
      ((ungroupedList groups).filter fun arc => p arc.source).map fun arc =>
        renderArc arc.source arc.target := by
  induction groups with
  | nil => rfl
  | cons group groups ih =>
    have hcons : ungroupedList (group :: groups) =
        group.2.map (Arc.mk group.1) ++ ungroupedList groups := rfl
    rw [hcons, List.filter_append, List.map_append, ← ih, List.filter_map]
    by_cases hline : p group.1 = true
    · have hall : ∀ target ∈ group.2,
          ((fun arc : Arc => p arc.source) ∘ Arc.mk group.1) target = true := fun _ _ => hline
      rw [List.filter_cons, if_pos hline, List.filter_eq_self.2 hall, List.map_map]
      rfl
    · have hnone : ∀ target ∈ group.2,
          ¬ ((fun arc : Arc => p arc.source) ∘ Arc.mk group.1) target = true := fun _ _ => hline
      rw [List.filter_cons, if_neg hline, List.filter_eq_nil_iff.2 hnone]
      rfl

/-- The text has the runs of missing statements first and the missing branches after them. -/
theorem renderMissing_eq (a : Analysis) :
    a.renderMissing = ", ".intercalate (a.runTexts ++ a.branchTexts) := by
  have hbranches : (if a.hasArcs then a.partialTexts else []) = a.branchTexts := by
    rw [branchTexts, writtenBranches]
    split
    · exact flatMap_renderArc (fun line => line ∉ a.missing) _
    · rfl
  rw [renderMissing, hbranches, runTexts, runRanges]

/-! ## Partial lines -/

theorem mem_partialLines {line : Int} :
    line ∈ a.partialLines ↔ (∃ target, (⟨line, target⟩ : Arc) ∈ a.missingBranches) ∧
      line ∉ a.missing := by
  rw [partialLines_eq, ← SortedSet.mem_def, SortedSet.mem_sdiff, ArcSet.mem_sources]

theorem nodup_partialLines : a.partialLines.Nodup := by
  rw [partialLines_eq]
  exact SortedSet.nodup _

namespace LooksAtArcs

theorem length_partialLines (ha : a.LooksAtArcs) :
    a.numbers.partialBranches = a.partialLines.length := by
  rw [ha.partialBranches_numbers, partialLines_eq, SortedSet.size]

/-- The branches that are written are those of the text's own condition, in arc order. -/
theorem writtenBranches_eq (ha : a.LooksAtArcs) :
    a.writtenBranches = (a.missingBranches.filter fun arc => arc.source ∉ a.missing).toList := by
  have hmissing : ungrouped a.missingBranchArcs = a.missingBranches.toList := ungrouped_grouped _
  rw [writtenBranches, hmissing]
  split
  · rfl
  · next harcs =>
    symm
    rw [List.eq_nil_iff_forall_not_mem]
    intro arc harc
    exact ha.notMem_missingBranches harcs (SortedSet.mem_filter.1 harc).1

theorem mem_writtenBranches (ha : a.LooksAtArcs) {arc : Arc} :
    arc ∈ a.writtenBranches ↔ arc ∈ a.missingBranches ∧ arc.source ∉ a.missing := by
  rw [ha.writtenBranches_eq, ← SortedSet.mem_def, SortedSet.mem_filter, decide_eq_true_iff]

/-- The branches that are written start from the partial lines. -/
theorem mem_partialLines_iff (ha : a.LooksAtArcs) {line : Int} :
    line ∈ a.partialLines ↔ ∃ target, (⟨line, target⟩ : Arc) ∈ a.writtenBranches := by
  rw [mem_partialLines, ← exists_and_right]
  exact exists_congr fun target => ha.mem_writtenBranches.symm

end LooksAtArcs

section Recorded

variable {reporter : Reporter} {recordedLines : LineSet} {recordedArcs : ArcSet} {line : Int}

/-- A statement ran when it is not missing, and no other line counts as run. -/
theorem mem_executed_iff (h : ofRecorded reporter recordedLines recordedArcs = .ok a) :
    line ∈ a.executed ↔ line ∈ a.statements ∧ line ∉ a.missing := by
  obtain ⟨lines, _, _, _, _, hlines, -, -, -, -, -⟩ := ofRecorded_eq_ok_iff.1 h
  obtain ⟨-, hexecuted, hmissing, -⟩ := lines_eq_of_ofRecorded h hlines
  rw [hmissing, hexecuted]
  simp only [SortedSet.mem_sdiff, SortedSet.mem_inter]
  tauto

theorem mem_statements_iff {lines : LineSet}
    (h : ofRecorded reporter recordedLines recordedArcs = .ok a)
    (hlines : reporter.lines = .ok lines) :
    line ∈ a.statements ↔ line ∈ lines ∧ line ∉ a.excluded := by
  rw [(lines_eq_of_ofRecorded h hlines).1, SortedSet.mem_sdiff]

/-- A missing line is a statement. -/
theorem mem_statements_of_mem_missing
    (h : ofRecorded reporter recordedLines recordedArcs = .ok a) (hline : line ∈ a.missing) :
    line ∈ a.statements := by
  obtain ⟨lines, _, _, _, _, hlines, -, -, -, -, -⟩ := ofRecorded_eq_ok_iff.1 h
  rw [(lines_eq_of_ofRecorded h hlines).2.2.1, SortedSet.mem_sdiff] at hline
  exact hline.1

/-- A partial line ran exactly when it is a statement. -/
theorem mem_executed_iff_of_mem_partialLines
    (h : ofRecorded reporter recordedLines recordedArcs = .ok a) (hline : line ∈ a.partialLines) :
    line ∈ a.executed ↔ line ∈ a.statements := by
  rw [mem_executed_iff h]
  exact and_iff_left (mem_partialLines.1 hline).2

/-- A line that is no statement is partial as soon as a branch from it is missing. -/
theorem mem_partialLines_of_notMem_statements
    (h : ofRecorded reporter recordedLines recordedArcs = .ok a) (hline : line ∉ a.statements) :
    line ∈ a.partialLines ↔ ∃ target, (⟨line, target⟩ : Arc) ∈ a.missingBranches := by
  rw [mem_partialLines]
  exact and_iff_left fun hmissing => hline (mem_statements_of_mem_missing h hmissing)

/-- All partial lines ran exactly when missing branches start from statements only. -/
theorem forall_partialLines_executed_iff
    (h : ofRecorded reporter recordedLines recordedArcs = .ok a) :
    (∀ line ∈ a.partialLines, line ∈ a.executed) ↔
      ∀ arc ∈ a.missingBranches, arc.source ∈ a.statements := by
  constructor
  · intro hran arc harc
    by_contra hno
    have hline : arc.source ∈ a.partialLines :=
      (mem_partialLines_of_notMem_statements h hno).2 ⟨arc.target, harc⟩
    exact hno ((mem_executed_iff h).1 (hran _ hline)).1
  · intro hstatements line hline
    rw [mem_executed_iff_of_mem_partialLines h hline]
    obtain ⟨⟨target, harc⟩, -⟩ := mem_partialLines.1 hline
    exact hstatements _ harc

end Recorded

/-- The lines that are counted as partial are those that a written branch starts from.
Each of them ran unless it is left out or not executable, and a line of either kind is
partial with any missing branch. So all of them ran exactly when every missing branch
starts from a statement. -/
theorem partial_lines_ran_unless_no_statement (reporter : Reporter)
    (hanswers : reporter.Answers) (recordedLines : LineSet) (recordedArcs : ArcSet) :
    ∃ a lines, ofRecorded reporter recordedLines recordedArcs = .ok a ∧
      reporter.lines = .ok lines ∧
      (a.numbers.partialBranches = a.partialLines.length ∧ a.partialLines.Nodup) ∧
      (a.renderMissing = ", ".intercalate (a.runTexts ++ a.branchTexts) ∧
        ∀ line, line ∈ a.partialLines ↔ ∃ target, ⟨line, target⟩ ∈ a.writtenBranches) ∧
      (∀ line ∈ a.partialLines, line ∈ a.executed ∨ line ∈ a.excluded ∨ line ∉ lines) ∧
      (∀ line, line ∈ a.excluded ∨ line ∉ lines →
        line ∉ a.executed ∧
          (line ∈ a.partialLines ↔ ∃ target, ⟨line, target⟩ ∈ a.missingBranches)) ∧
      ((∀ line ∈ a.partialLines, line ∈ a.executed) ↔
        ∀ arc ∈ a.missingBranches, arc.source ∈ a.statements) := by
  obtain ⟨a, ha⟩ := exists_ofRecorded_iff.2 hanswers
  obtain ⟨lines, hlines⟩ := hanswers.1
  have hlooks := looksAtArcs_of_ofRecorded ha
  refine ⟨a, lines, ha, hlines, ⟨hlooks.length_partialLines, nodup_partialLines⟩,
    ⟨a.renderMissing_eq, fun _ => hlooks.mem_partialLines_iff⟩, ?_, ?_,
    forall_partialLines_executed_iff ha⟩
  · intro line hline
    rw [mem_executed_iff_of_mem_partialLines ha hline, mem_statements_iff ha hlines]
    tauto
  · intro line hno
    have hstatement : line ∉ a.statements := by
      rw [mem_statements_iff ha hlines]
      tauto
    exact ⟨fun hran => hstatement ((mem_executed_iff ha).1 hran).1,
      mem_partialLines_of_notMem_statements ha hstatement⟩

/-! ## A page that leaves out a line with two ways on -/

namespace LeftOut

/-- The reporter of a page. Its first two lines both go on to the third or to the
fourth, and the second one is left out. -/
def reporter : Reporter where
  host := ⟨∅, []⟩
  filename := ⟨"/s/page"⟩
  lines := .ok (.ofList [1, 2, 3, 4])
  excludedLines := .ok (.ofList [2])
  arcs := .ok (.ofList [⟨1, 3⟩, ⟨1, 4⟩, ⟨2, 3⟩, ⟨2, 4⟩])

/-- The page went from its first line to its third. -/
def recordedLines : LineSet := .ofList [1, 3]

/-- The step that was recorded. -/
def recordedArcs : ArcSet := .ofList [⟨1, 3⟩]

/-- The analysis of the page. -/
def analysis : Analysis where
  filename := ⟨"/s/page"⟩
  statements := .ofList [1, 3, 4]
  excluded := .ofList [2]
  executed := .ofList [1, 3]
  missing := .ofList [4]
  unpredicted := ∅
  hasArcs := true
  possibleArcs := .ofList [⟨1, 3⟩, ⟨1, 4⟩, ⟨2, 3⟩, ⟨2, 4⟩]
  executedArcs := recordedArcs
  exitCounts := ((∅ : ExitCounts).insert 1 2).insert 2 2
  noBranch := ∅

theorem ofRecorded_eq_analysis :
    ofRecorded reporter recordedLines recordedArcs = .ok analysis := by
  decide +kernel

/-- Both lines with two ways on are partial, and only the first of them ran. -/
theorem partial_lines_of_page :
    reporter.Answers ∧ ofRecorded reporter recordedLines recordedArcs = .ok analysis ∧
      analysis.partialLines = [1, 2] ∧ 1 ∈ analysis.executed ∧ 2 ∉ analysis.executed ∧
      ¬ ∀ arc ∈ analysis.missingBranches, arc.source ∈ analysis.statements := by
  have hanswers : reporter.Answers :=
    ⟨⟨_, rfl⟩, ⟨_, rfl⟩, _, rfl, fun _ => ⟨⟨_, rfl⟩, _, rfl⟩⟩
  have hpartial : analysis.partialLines = [1, 2] := by decide +kernel
  have hfirst : 1 ∈ analysis.executed := by decide +kernel
  have hexcluded : 2 ∈ analysis.excluded := by decide +kernel
  obtain ⟨a, lines, ha, -, -, -, -, hno, hall⟩ :=
    partial_lines_ran_unless_no_statement reporter hanswers recordedLines recordedArcs
  obtain rfl : a = analysis := Except.ok.inj (ha.symm.trans ofRecorded_eq_analysis)
  have hsecond : 2 ∉ analysis.executed := (hno 2 (.inl hexcluded)).1
  refine ⟨hanswers, ha, hpartial, hfirst, hsecond, ?_⟩
  intro hstatements
  have hline : 2 ∈ analysis.partialLines := by
    rw [hpartial]
    decide
  exact hsecond (hall.2 hstatements 2 hline)

/-- The line that is left out never ran, and is counted and written as one that took
some of its exits. -/
theorem left_out_line_is_partial :
    ofRecorded reporter recordedLines recordedArcs = .ok analysis ∧
      2 ∈ analysis.excluded ∧ 2 ∉ analysis.executed ∧ 2 ∈ analysis.partialLines ∧
      analysis.numbers.partialBranches = 2 ∧
      analysis.renderMissing = "4, 1->4, 2->3, 2->4" := by
  refine ⟨ofRecorded_eq_analysis, ?_⟩
  decide +kernel

end LeftOut

end Analysis

end Coverage
