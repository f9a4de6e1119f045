/-
# File reporters

A reporter describes one source file to the analysis: which of its lines are
executable, which are left out, and which steps from line to line are possible.
Only the file name and the executable lines have to be given. Everything else
has a default that adds nothing: the number of exits follows from the possible
steps, and the source is what the host has under the file's name.

Reporters are told apart and ordered by the bytes of their file names alone.
-/
import Coverage.Failure
import Coverage.Host
import Coverage.Line
import Coverage.Text.Basic
import Coverage.Token

namespace Coverage

/-- The text of the file that a path leads to. -/
def Host.readText (host : Host) (p : Path) : Except Failure String :=
  match host.content? p with
  | none => .error (.unreadable p)
  | some content =>
    match String.fromUTF8? ⟨content.toArray⟩ with
    | some text => .ok text
    | none => .error (.invalidText p)

/-- What is known of one source file. -/
structure Reporter where
  /-- The host that has the file. -/
  host : Host
  /-- The file that is reported on. -/
  filename : Path
  /-- The executable lines. -/
  lines : Except Failure LineSet
  /-- The name that reports show. -/
  relativeName : Path := host.relativeName filename
  /-- The whole text of the file. -/
  source : Except Failure String := host.readText filename
  /-- The executable lines that are left out. -/
  excludedLines : Except Failure LineSet := .ok ∅
  /-- The lines that need not take all their exits. -/
  noBranchLines : Except Failure LineSet := .ok ∅
  /-- The reported lines for recorded ones. -/
  translateLines : LineSet → LineSet := id
  /-- The possible arcs. -/
  arcs : Except Failure ArcSet := .ok ∅
  /-- The reported arcs for recorded ones. -/
  translateArcs : ArcSet → ArcSet := id
  /-- How many exits each line has. -/
  exitCounts : Except Failure ExitCounts := arcs.map ArcSet.exitCounts
  /-- A sentence on an arc that never ran, given the arcs that did. -/
  describeMissingArc : Int → Int → Option ArcSet → String := fun source target _ =>
    "Line " ++ toString source ++ " didn't jump to line " ++ toString target
  /-- The classified tokens of each line. -/
  tokenLines : Except Failure (List TokenLine) := source.map plainTokenLines

/-- The lines with several exits, those in `noBranch` apart. -/
def ExitCounts.branchLines (counts : ExitCounts) (noBranch : LineSet) : LineSet :=
  ⟨(counts.toList.filter fun entry => 1 < entry.2 && entry.1 ∉ noBranch).map (·.1), by
    rw [List.pairwise_map]
    exact counts.ascending.filter _⟩

namespace Reporter

/-- The lines with several exits that have to take them all. -/
def branchLines (reporter : Reporter) : Except Failure LineSet := do
  let noBranch ← reporter.noBranchLines
  let counts ← reporter.exitCounts
  return counts.branchLines noBranch

/-- Reporters are compared by the bytes of their file names. -/
def compareNames (r s : Reporter) : Ordering := Text.compareBytes r.filename.text s.filename.text

/-- Whether two reporters report on one file name. -/
def sameName (r s : Reporter) : Bool := r.filename.text == s.filename.text

/-- Reporters in the order of their file names; those with one name stay in order. -/
def sort (reporters : List Reporter) : List Reporter :=
  sortBy compareNames reporters

/-- How a reporter shows in a debugging text. -/
def debugText (reporter : Reporter) : String :=
  "<FileReporter filename=" ++ Text.quote reporter.filename.text ++ ">"

end Reporter

/-- Who reports on a file. -/
inductive ReporterChoice where
  /-- The engine itself, as a file of its own text format. -/
  | native
  /-- A reporter of the plug-in. -/
  | plugin (reporter : Reporter)

end Coverage
