/-
# Reports

A report goes through the files with recorded data. The plug-in that is credited
with a file is asked for its reporter, and what the reporter knows is put beside
the data. The counts of all analyzed files are added up; a file that could not
be analyzed, or that the engine reports on itself, adds nothing.
-/
import Coverage.Analysis
import Coverage.Registry.Arbitration

namespace Coverage

variable {σ : Type}

/-- What came of the analysis of a file. -/
inductive FileReport where
  /-- The engine reports on the file itself. -/
  | native
  | analyzed (reporter : Reporter) (analysis : Analysis)
  | failed (failure : Failure)

namespace FileReport

/-- The counts that a file adds to a report. -/
def numbers : FileReport → Numbers
  | analyzed _ analysis => analysis.numbers
  | _ => .zero

end FileReport

/-- Analyze a file with the reporter of a plug-in. -/
def Registry.analyze (registry : Registry σ) (data : CoverageData) (plugin : String)
    (filename : Path) (world : σ) : FileReport × σ :=
  match registry.fileReporter plugin filename world with
  | (.error failure, world) => (.failed failure, world)
  | (.ok .native, world) => (.native, world)
  | (.ok (.plugin reporter), world) =>
    match Analysis.compute reporter data with
    | .ok analysis => (.analyzed reporter analysis, world)
    | .error failure => (.failed failure, world)

/-- Analyze files in order, each with the reporter of the plug-in that is
credited with it. -/
def Registry.analyzeAll (registry : Registry σ) (data : CoverageData) :
    List (Path × FileData) → σ → List (Path × FileReport) × σ
  | [], world => ([], world)
  | (filename, file) :: rest, world =>
    let (report, world) := registry.analyze data file.plugin filename world
    let (reports, world) := registry.analyzeAll data rest world
    ((filename, report) :: reports, world)

/-- Analyze all files with recorded data. -/
def Registry.report (registry : Registry σ) (data : CoverageData) (world : σ) :
    List (Path × FileReport) × σ :=
  registry.analyzeAll data data.files.toList world

/-- The counts of all files of a report. -/
def totalNumbers (reports : List (Path × FileReport)) : Numbers :=
  reports.foldl (fun total report => total + report.2.numbers) .zero

end Coverage
