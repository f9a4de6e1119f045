/-
# Totals of reports

A report has one part for each file with recorded data, in the order of the files. The parts
that hold an analysis are those whose plug-in had a reporter that answered, and each such
analysis was made of the recorded data. The other parts count nothing, so the total of a
report is the total of its analyses, and what is known of such totals holds of reports: the
order of the files does not matter, and nothing is missed that was not counted
(`report_adds_up`).
-/
import Coverage.Proofs.Analysis.Totals
import Coverage.Report

namespace Coverage

/-- The analysis of a file that was analyzed. -/
def FileReport.analysis? : FileReport → Option Analysis
  | .analyzed _ analysis => some analysis
  | _ => none

/-- The analyses that were made for a report, in order. -/
def analyses (reports : List (Path × FileReport)) : List Analysis :=
  reports.filterMap (·.2.analysis?)

/-- A file that was not analyzed counts nothing. -/
theorem FileReport.numbers_eq (report : FileReport) :
    report.numbers = (report.analysis?.map Analysis.numbers).getD 0 := by
  cases report <;> rfl

/-- The total of a report is that of its analyses. -/
theorem totalNumbers_eq (reports : List (Path × FileReport)) :
    totalNumbers reports = ((analyses reports).map Analysis.numbers).sum := by
  have hsum : totalNumbers reports = (reports.map (·.2.numbers)).sum := by
    rw [totalNumbers, ← List.foldl_map (f := fun report : Path × FileReport => report.2.numbers),
      List.sum_eq_foldl]
    rfl
  rw [hsum]
  clear hsum
  induction reports with
  | nil => rfl
  | cons report reports ih =>
    rw [List.map_cons, List.sum_cons, ih, FileReport.numbers_eq, analyses, analyses,
      List.filterMap_cons]
    cases report.2.analysis? with
    | none => exact zero_add _
    | some a => rfl

namespace Registry

variable {σ : Type} (registry : Registry σ) (data : CoverageData)

/-- An analysis is that of the recorded data, with the reporter that the plug-in of the file
gave. -/
theorem compute_of_analyze {plugin : String} {filename : Path} {world : σ} {a : Analysis}
    (h : (registry.analyze data plugin filename world).1.analysis? = some a) :
    ∃ reporter, (registry.fileReporter plugin filename world).1 = .ok (.plugin reporter) ∧
      Analysis.compute reporter data = .ok a := by
  rw [analyze] at h
  rcases hasked : registry.fileReporter plugin filename world with ⟨_ | _ | reporter, asked⟩ <;>
    simp only [hasked] at h
  · cases h
  · cases h
  · cases hmade : Analysis.compute reporter data with
    | error failure =>
      rw [hmade] at h
      cases h
    | ok made =>
      rw [hmade] at h
      cases h
      exact ⟨reporter, rfl, hmade⟩

/-- Every file has its part of the report, in order. -/
theorem map_fst_analyzeAll (files : List (Path × FileData)) (world : σ) :
    (registry.analyzeAll data files world).1.map Prod.fst = files.map Prod.fst := by
  induction files generalizing world with
  | nil => rfl
  | cons file files ih =>
    rw [analyzeAll, List.map_cons, List.map_cons, ih]

theorem compute_of_mem_analyses {files : List (Path × FileData)} {world : σ} {a : Analysis}
    (h : a ∈ analyses (registry.analyzeAll data files world).1) :
    ∃ reporter, Analysis.compute reporter data = .ok a := by
  induction files generalizing world with
  | nil => cases h
  | cons file files ih =>
    rw [analyzeAll, analyses, List.filterMap_cons] at h
    split at h
    · exact ih h
    · next made hmade =>
      obtain rfl | hrest := List.mem_cons.1 h
      · obtain ⟨reporter, -, hcompute⟩ := registry.compute_of_analyze data hmade
        exact ⟨reporter, hcompute⟩
      · exact ih hrest

/-- A report has a part for each file with recorded data. Its total is that of the analyses
that were made of the data, however they are added up, and misses no more than it counts. -/
theorem report_adds_up (world : σ) :
    let reports := (registry.report data world).1
    reports.map Prod.fst = data.files.toList.map Prod.fst ∧
    (∀ a ∈ analyses reports, ∃ reporter, Analysis.compute reporter data = .ok a) ∧
    (∀ tally : Analysis.Tally, tally.files.Perm (analyses reports) →
      tally.numbers = totalNumbers reports) ∧
    (totalNumbers reports).IsSound := by
  intro reports
  have hcompute : ∀ a ∈ analyses reports, ∃ reporter, Analysis.compute reporter data = .ok a :=
    fun a ha => registry.compute_of_mem_analyses data ha
  refine ⟨registry.map_fst_analyzeAll data _ world, hcompute, fun tally hfiles => ?_, ?_⟩
  · rw [tally.numbers_eq, totalNumbers_eq, (hfiles.map Analysis.numbers).sum_eq]
  · rw [totalNumbers_eq]
    apply Numbers.IsSound.sum
    intro n hn
    obtain ⟨a, ha, rfl⟩ := List.mem_map.1 hn
    obtain ⟨reporter, hreporter⟩ := hcompute a ha
    exact Analysis.IsRecorded.isSound ⟨reporter, _, _, hreporter⟩

end Registry

end Coverage
