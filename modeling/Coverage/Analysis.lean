/-
# Analysis of a source file

An analysis puts what was recorded of a file beside what its reporter knows of
it: which statements ran and which are missing, and which possible arcs ran. The
counts, the branches line by line and the short text of what is missing follow
from these sets.

Arcs are looked at only when the reporter knows any.
-/
import Coverage.Data
import Coverage.Numbers
import Coverage.Reporter

namespace Coverage

/-- What ran of a source file and what could have run. -/
structure Analysis where
  filename : Path
  /-- The executable lines that are not left out. -/
  statements : LineSet
  excluded : LineSet
  /-- The statements that ran. -/
  executed : LineSet
  /-- The statements that never ran. -/
  missing : LineSet
  /-- The lines that ran but are not executable. -/
  unpredicted : LineSet
  /-- Whether the reporter knows possible arcs. -/
  hasArcs : Bool
  possibleArcs : ArcSet
  /-- The arcs that ran. -/
  executedArcs : ArcSet
  exitCounts : ExitCounts
  /-- The lines that need not take all their exits. -/
  noBranch : LineSet
deriving DecidableEq, Repr

namespace Analysis

/-- What a reporter says on arcs, given the recorded ones: the arcs that ran, the
number of exits of lines, and the lines that need not take all exits. -/
def branchFacts (reporter : Reporter) (recorded : ArcSet) :
    Except Failure (ArcSet × ExitCounts × LineSet) := do
  let counts ← reporter.exitCounts
  let noBranch ← reporter.noBranchLines
  return (reporter.translateArcs recorded, counts, noBranch)

/-- Analyze the file of a reporter, given what was recorded of it. -/
def ofRecorded (reporter : Reporter) (recordedLines : LineSet) (recordedArcs : ArcSet) :
    Except Failure Analysis := do
  let lines ← reporter.lines
  let excluded ← reporter.excludedLines
  let statements := lines \ excluded
  let translated := reporter.translateLines recordedLines
  let executed := translated ∩ statements
  let possibleArcs ← reporter.arcs
  let hasArcs := !possibleArcs.isEmpty
  let (executedArcs, exitCounts, noBranch) ←
    if hasArcs then branchFacts reporter recordedArcs else pure (∅, ∅, ∅)
  return {
    filename := reporter.filename
    statements := statements
    excluded := excluded
    executed := executed
    missing := statements \ executed
    unpredicted := translated \ lines
    hasArcs := hasArcs
    possibleArcs := possibleArcs
    executedArcs := executedArcs
    exitCounts := exitCounts
    noBranch := noBranch }

/-- Analyze the file of a reporter, given all recorded data. -/
def compute (reporter : Reporter) (data : CoverageData) : Except Failure Analysis :=
  ofRecorded reporter (data.lines reporter.filename) (data.arcs reporter.filename)

/-! ## Arcs and branches -/

/-- The possible arcs that never ran. An arc does not count when its start need
not take all exits or its end is left out. -/
def missingArcs (a : Analysis) : ArcSet :=
  a.possibleArcs.filter fun arc =>
    arc ∉ a.executedArcs && arc.source ∉ a.noBranch && arc.target ∉ a.excluded

/-- The arcs that ran but are not known to be possible. A step from a line to
itself, or between synthetic lines, is nothing to predict. -/
def unpredictedArcs (a : Analysis) : ArcSet :=
  a.executedArcs.filter fun arc =>
    arc ∉ a.possibleArcs && arc.source ≠ arc.target && (0 < arc.source || 0 < arc.target)

/-- The lines with several exits that have to take them all. -/
def branchLines (a : Analysis) : LineSet := a.exitCounts.branchLines a.noBranch

/-- The possible arcs from branch lines to lines that are not left out. -/
def branchArcs (a : Analysis) : ArcSet :=
  let lines := a.branchLines
  a.possibleArcs.filter fun arc => arc.source ∈ lines && arc.target ∉ a.excluded

/-- Arcs by the line that they start from. -/
def grouped (arcs : ArcSet) : SortedMap Int (List Int) :=
  arcs.toList.foldl
    (fun groups arc => groups.alter arc.source fun targets => targets.getD [] ++ [arc.target]) ∅

/-- The missing arcs from branch lines, by the line that they start from. -/
def missingBranchArcs (a : Analysis) : SortedMap Int (List Int) :=
  let lines := a.branchLines
  grouped (a.missingArcs.filter fun arc => arc.source ∈ lines)

/-- The possible arcs from branch lines that ran, by the line that they start from. -/
def executedBranchArcs (a : Analysis) : SortedMap Int (List Int) :=
  let lines := a.branchLines
  grouped (a.executedArcs.filter fun arc => arc.source ∈ lines && arc ∈ a.possibleArcs)

/-- The lines that ran but did not take all their exits. -/
def partialLines (a : Analysis) : List Int :=
  a.missingBranchArcs.keys.filter fun line => line ∉ a.missing

/-! ## Counts -/

/-- The counts of the file. -/
def numbers (a : Analysis) : Numbers where
  files := 1
  statements := a.statements.size
  excluded := a.excluded.size
  missing := a.missing.size
  branches := if a.hasArcs then a.branchArcs.size else 0
  partialBranches := if a.hasArcs then a.partialLines.length else 0
  missingBranches := if a.hasArcs then a.missingBranchArcs.values.flatten.length else 0

/-- The percentage of the file that ran. -/
def percentCovered (a : Analysis) : Float := a.numbers.percentCovered

/-! ## Texts -/

/-- The reporter's sentence on each missing arc. -/
def missingDescriptions (a : Analysis) (reporter : Reporter) : List (Arc × String) :=
  a.missingArcs.toList.map fun arc =>
    (arc, reporter.describeMissingArc arc.source arc.target (some a.executedArcs))

/-- The missing statements in runs: each from a first to a last statement with no
executed statement between them. `open?` is the run that is not finished yet. -/
def missingRuns (missing : LineSet) : Option (Int × Int) → List Int → List (Int × Int)
  | run, [] => run.toList
  | run, line :: rest =>
    if line ∈ missing then
      missingRuns missing (some ((run.map (·.1)).getD line, line)) rest
    else run.toList ++ missingRuns missing none rest

/-- A run as text: one line, or the first and the last one. -/
def renderRun (run : Int × Int) : String :=
  if run.1 = run.2 then toString run.1 else toString run.1 ++ "-" ++ toString run.2

/-- A missing arc as text. A negative target is an exit. -/
def renderArc (source target : Int) : String :=
  toString source ++ "->" ++ if target < 0 then "exit" else toString target

/-- The texts of the missing arcs from lines that ran. -/
def partialTexts (a : Analysis) : List String :=
  (a.missingBranchArcs.toList.filter fun group => group.1 ∉ a.missing).flatMap fun group =>
    group.2.map (renderArc group.1)

/-- What is missing as a short text: the runs of missing statements, and then
the missing arcs from lines that ran. -/
def renderMissing (a : Analysis) : String :=
  ", ".intercalate
    ((missingRuns a.missing none a.statements.toList).map renderRun ++
      if a.hasArcs then a.partialTexts else [])

end Analysis

end Coverage
