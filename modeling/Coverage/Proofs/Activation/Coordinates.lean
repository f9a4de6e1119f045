/-
# Listed files without coordinates, and arcs without lines

A tracer may answer with any pair of lines, and so with a range whose last line lies
before its first one. Such a range has no lines, but its step is measured: the file is
listed, and the arcs that lead to the step and from it join the two numbers of the
pair. These are the only entries without coordinates, and the only arcs with an end
that is not a recorded line.
-/
import Coverage.Proofs.Activation.Listing

namespace Coverage

open Recorder

namespace Activation

variable {a : Activation} {source : Path}

/-- An activation takes an arc to each of its steps. -/
theorem exists_takes {step : MeasuredStep} (hstep : step ∈ a.steps)
    (hsame : sameSource step.source source) : ∃ arc, a.Takes source arc := by
  obtain ⟨before, after, hsplit⟩ := List.append_of_mem hstep
  by_cases hjoined : ∃ prior ∈ before.getLast?, sameSource prior.source step.source
  · obtain ⟨prior, hlast, hjoined⟩ := hjoined
    obtain ⟨earlier, rfl⟩ := List.getLast?_eq_some_iff.1 hlast
    rw [List.append_assoc, List.singleton_append] at hsplit
    exact ⟨_, .join hsplit hsame hjoined⟩
  · have hfresh : ∀ prior ∈ before.getLast?, ¬ sameSource prior.source step.source :=
      fun prior hprior hsame => hjoined ⟨prior, hprior, hsame⟩
    exact ⟨_, .enter hsplit hsame hfresh⟩

/-- The ends of an arc are the boundary, or a first or last line of steps in the file. -/
theorem Takes.exists_step {arc : Arc} (h : a.Takes source arc) {line : Int}
    (hend : line = arc.source ∨ line = arc.target) (hline : line ≠ -1) :
    ∃ step ∈ a.steps, sameSource step.source source ∧
      (line = step.range.first ∨ line = step.range.last) := by
  cases h with
  | @enter before after step split here fresh =>
    rcases hend with rfl | rfl
    · exact absurd rfl hline
    · refine ⟨step, ?_, here, .inl rfl⟩
      rw [split]
      exact List.mem_append_right _ List.mem_cons_self
  | @join before after prior step split here same =>
    have hprior : sameSource prior.source source :=
      sameSource_iff.2 (Std.TransCmp.eq_trans (sameSource_iff.1 same) (sameSource_iff.1 here))
    rcases hend with rfl | rfl
    · refine ⟨prior, ?_, hprior, .inr rfl⟩
      rw [split]
      exact List.mem_append_right _ List.mem_cons_self
    · refine ⟨step, ?_, here, .inl rfl⟩
      rw [split]
      exact List.mem_append_right _ (List.mem_cons_of_mem _ List.mem_cons_self)
  | @switch before after prior step split here other =>
    rcases hend with rfl | rfl
    · refine ⟨prior, ?_, here, .inr rfl⟩
      rw [split]
      exact List.mem_append_right _ List.mem_cons_self
    · exact absurd rfl hline
  | @exit before step split here closed =>
    rcases hend with rfl | rfl
    · refine ⟨step, ?_, here, .inr rfl⟩
      rw [split]
      exact List.mem_append_right _ List.mem_cons_self
    · exact absurd rfl hline

end Activation

namespace Collector

variable {σ : Type}

section Run

variable {host : Host} {plugins : Registry σ} {branch : Bool} {events : List Event} {world : σ}
  {source : Path} {label : String}

/-- A run records the lines of the ranges that it measured. -/
theorem mem_linesIn_run_iff {line : Int} :
    line ∈ ((start host plugins branch).run events world).1.data.linesIn source label ↔
      ∃ step, (start host plugins branch).Measures events world step label ∧
        sameSource step.source source ∧ step.range.first ≤ line ∧ line ≤ step.range.last := by
  apply ((follows_run host plugins branch events world).lines source label line).trans
  exact exists_step_of_label_iff host plugins branch events world _

/-- Where a step was measured, arcs are recorded exactly when branches are measured. -/
theorem exists_mem_arcsIn_run_iff {step : MeasuredStep}
    (h : (start host plugins branch).Measures events world step label)
    (hsame : sameSource step.source source) :
    (∃ arc, arc ∈ ((start host plugins branch).run events world).1.data.arcsIn source label) ↔
      branch = true := by
  have harcs := (follows_run host plugins branch events world).arcs source label
  rw [branch_run] at harcs
  constructor
  · intro h
    obtain ⟨arc, harc⟩ := h
    exact ((harcs arc).1 harc).1
  · intro hbranch
    obtain ⟨a, ha, hlabel, step, hstep, hsame⟩ :=
      (exists_step_of_label_iff host plugins branch events world (sameSource ·.source source)).2
        ⟨step, h, hsame⟩
    obtain ⟨arc, htakes⟩ := Activation.exists_takes hstep hsame
    exact ⟨arc, (harcs arc).2 ⟨hbranch, a, ha, hlabel, htakes⟩⟩

/-- The ends of the arcs of a run are the boundary, or first and last lines of ranges
that it measured in the file under the label. -/
theorem exists_measures_of_mem_arcsIn {arc : Arc}
    (h : arc ∈ ((start host plugins branch).run events world).1.data.arcsIn source label)
    {line : Int} (hend : line = arc.source ∨ line = arc.target) (hline : line ≠ -1) :
    ∃ step, (start host plugins branch).Measures events world step label ∧
      sameSource step.source source ∧ (line = step.range.first ∨ line = step.range.last) := by
  obtain ⟨-, a, ha, hlabel, htakes⟩ :=
    ((follows_run host plugins branch events world).arcs source label arc).1 h
  apply (exists_step_of_label_iff host plugins branch events world _).1
  exact ⟨a, ha, hlabel, htakes.exists_step hend hline⟩

end Run

/-- What is listed and joined, for any answers of the tracers. A file that is listed
under a label has a coordinate there, unless branches are not measured and all ranges
there are reversed; an end of an arc is the boundary, a recorded line, or one of the
two lines of a reversed range. -/
theorem coordinates_unless_reversed (host : Host) (plugins : Registry σ) (branch : Bool)
    (events : List Event) (world : σ) :
    let first := start host plugins branch
    let data := (first.run events world).1.data
    (∀ source ∈ data.measuredFiles, ∃ label, label ∈ data.contexts source) ∧
    ∀ source label, label ∈ data.contexts source →
      ((∃ line, line ∈ data.linesIn source label) ∨ (∃ arc, arc ∈ data.arcsIn source label) ↔
        branch = true ∨ ∃ step, first.Measures events world step label ∧
          sameSource step.source source ∧ step.range.first ≤ step.range.last) ∧
      ∀ arc ∈ data.arcsIn source label, ∀ line, line = arc.source ∨ line = arc.target →
        line ≠ -1 → line ∈ data.linesIn source label ∨
          ∃ step, first.Measures events world step label ∧ sameSource step.source source ∧
            step.range.last < step.range.first ∧
            (line = step.range.first ∨ line = step.range.last) := by
  intro first data
  refine ⟨?_, ?_⟩
  · intro source hsource
    obtain ⟨label, hlists⟩ := exists_lists_of_mem_measuredFiles hsource
    exact ⟨label, CoverageData.mem_contexts_iff.2 hlists⟩
  · intro source label hlabel
    obtain ⟨listed, hlisted, hthere⟩ := lists_run_iff.1 (CoverageData.mem_contexts_iff.1 hlabel)
    refine ⟨?_, ?_⟩
    · rw [exists_mem_arcsIn_run_iff hlisted hthere, or_comm]
      apply or_congr_right
      simp only [data, first, mem_linesIn_run_iff]
      constructor
      · intro h
        obtain ⟨line, step, hmeasures, hsame, hfirst, hlast⟩ := h
        exact ⟨step, hmeasures, hsame, Int.le_trans hfirst hlast⟩
      · intro h
        obtain ⟨step, hmeasures, hsame, hordered⟩ := h
        exact ⟨step.range.first, step, hmeasures, hsame, Int.le_refl _, hordered⟩
    · intro arc harc line hend hline
      obtain ⟨step, hmeasures, hsame, hstep⟩ := exists_measures_of_mem_arcsIn harc hend hline
      by_cases hordered : step.range.first ≤ step.range.last
      · apply Or.inl
        apply mem_linesIn_run_iff.2
        refine ⟨step, hmeasures, hsame, ?_⟩
        rcases hstep with rfl | rfl
        · exact ⟨Int.le_refl _, hordered⟩
        · exact ⟨hordered, Int.le_refl _⟩
      · exact .inr ⟨step, hmeasures, hsame, Int.not_le.1 hordered, hstep⟩

/-! ## A tracer that answers with a reversed range -/

namespace Backwards

/-- A page that a plug-in traces. -/
def source : Path := ⟨"/s/page"⟩

/-- The tracer answers with a range that starts after its end. -/
def tracing : Plugin Unit where
  identity := "page"
  typeName := "Pages"
  fileTracer _ := Hook.answer (some
    { sourceFilename := fun world => (source, world)
      lineRange := fun _ => Hook.answer ⟨5, 3⟩ })

/-- The plug-ins of a run. -/
def plugins : Registry Unit := (∅ : Registry Unit).register "site" .fileTracer tracing

/-- A frame of the traced file. -/
def frame : Frame := ⟨⟨"/b/page"⟩, 1, "f"⟩

/-- One frame runs one line. -/
def events : List Event := [.call frame, .line frame, .ret frame]

/-- What was recorded. -/
def data (branch : Bool) : CoverageData := ((start ⟨∅, []⟩ plugins branch).run events ()).1.data

/-- Without branches the page is listed, under the empty label, and nothing was recorded
of it. With branches its arcs go to line 5 and come from line 3, and neither is one of
its lines. -/
theorem lists_nothing_recorded :
    (data false).measuredFiles = [source] ∧ (data false).contexts source = [""] ∧
      (data false).linesIn source "" = ∅ ∧ (data false).arcsIn source "" = ∅ ∧
      (data true).arcsIn source "" = .ofList [⟨-1, 5⟩, ⟨3, -1⟩] ∧
      (data true).linesIn source "" = ∅ := by
  refine ⟨?_, ?_, ?_, ?_, ?_, ?_⟩ <;> decide +kernel

end Backwards

end Collector

end Coverage
