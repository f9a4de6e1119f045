/-
# What measuring branches adds

Two collectors take the same events, and one of them measures branches. Forgetting
the arcs that it recorded gives the other one, at every moment: the two ask the
same questions, fail at the same events and record the same lines of the same
files, credited to the same plug-ins. What measuring branches adds is arcs.

Forgetting is `Recorder.withoutArcs`. It goes past every operation of a recorder
that is anchored: such a recorder writes arcs only where something was recorded
before, and an entry that is there already does not show that it was given an arc.
-/
import Coverage.Proofs.Activation.Listing
import Coverage.Proofs.Recorder.Credit
import Coverage.Proofs.Registry.Asking

namespace Coverage

open Recorder

/-- The lines of a part. -/
def Measured.withoutArcs (part : Measured) : Measured := { part with arcs := ∅ }

/-- A file with the lines of its parts. -/
def FileData.withoutArcs (file : FileData) : FileData :=
  { file with contexts := file.contexts.mapValues Measured.withoutArcs }

namespace CoverageData

/-- The same files, contexts and lines, and no arc. -/
def withoutArcs (data : CoverageData) : CoverageData :=
  ⟨data.files.mapValues FileData.withoutArcs⟩

variable (data : CoverageData) (source : Path) (plugin context : String)

theorem measuredFiles_withoutArcs : data.withoutArcs.measuredFiles = data.measuredFiles :=
  SortedMap.keys_mapValues ..

theorem file?_withoutArcs :
    data.withoutArcs.file? source = (data.file? source).map FileData.withoutArcs :=
  SortedMap.get?_mapValues ..

theorem tracer?_withoutArcs : data.withoutArcs.tracer? source = data.tracer? source := by
  rw [tracer?, tracer?, file?_withoutArcs]
  cases data.file? source <;> rfl

theorem contexts_withoutArcs : data.withoutArcs.contexts source = data.contexts source := by
  rw [contexts, contexts, file?_withoutArcs]
  cases data.file? source with
  | none => rfl
  | some file => exact SortedMap.keys_mapValues ..

theorem measured?_withoutArcs :
    data.withoutArcs.measured? source context =
      (data.measured? source context).map Measured.withoutArcs := by
  rw [measured?, measured?, file?_withoutArcs]
  cases data.file? source with
  | none => rfl
  | some file => exact SortedMap.get?_mapValues ..

theorem linesIn_withoutArcs :
    data.withoutArcs.linesIn source context = data.linesIn source context := by
  rw [linesIn, linesIn, measured?_withoutArcs]
  cases data.measured? source context <;> rfl

theorem arcsIn_withoutArcs : data.withoutArcs.arcsIn source context = ∅ := by
  rw [arcsIn, measured?_withoutArcs]
  cases data.measured? source context <;> rfl

/-- Lines are not forgotten. -/
theorem withoutArcs_addLines (lines : LineSet) :
    (data.addLines source plugin context lines).withoutArcs =
      data.withoutArcs.addLines source plugin context lines := by
  rw [addLines, addLines, record, record, withoutArcs, withoutArcs, mk.injEq]
  apply SortedMap.mapValues_alter
  intro file
  have hfile : (file.getD ⟨plugin, ∅⟩).withoutArcs =
      (file.map FileData.withoutArcs).getD ⟨plugin, ∅⟩ := by
    cases file <;> rfl
  have hparts : ∀ parts : SortedMap String Measured,
      (parts.alter context fun part =>
        { part.getD ∅ with lines := (part.getD ∅).lines ∪ lines }).mapValues
          Measured.withoutArcs =
        (parts.mapValues Measured.withoutArcs).alter context fun part =>
          { part.getD ∅ with lines := (part.getD ∅).lines ∪ lines } := by
    intro parts
    apply SortedMap.mapValues_alter
    intro part
    cases part <;> rfl
  simp only [FileData.withoutArcs] at hfile ⊢
  rw [hparts, ← hfile]

variable {data source context}

/-- An arc is forgotten where the file is listed. -/
theorem withoutArcs_addArc (h : data.Lists source context) (arc : Arc) :
    (data.addArc source plugin context arc).withoutArcs = data.withoutArcs := by
  rw [Lists, measured?, file?, Option.isSome_iff_exists] at h
  obtain ⟨part, hpart⟩ := h
  obtain ⟨file, hfile, hpart⟩ := Option.bind_eq_some_iff.1 hpart
  rw [addArc, record, withoutArcs, withoutArcs, mk.injEq]
  apply SortedMap.mapValues_alter_of_get? hfile
  simp only [FileData.withoutArcs, Option.getD_some, FileData.mk.injEq, true_and]
  exact SortedMap.mapValues_alter_of_get? hpart rfl

end CoverageData

namespace Recorder

/-- A recorder that measures no branches and recorded the same otherwise. -/
def withoutArcs (r : Recorder) : Recorder :=
  { r with branch := false, data := r.data.withoutArcs }

section AddArc

variable {r : Recorder} {source : Path}

theorem addArc_withoutArcs (r : Recorder) (source : Path) (plugin : String) (arc : Arc) :
    r.withoutArcs.addArc source plugin arc = r.withoutArcs := by
  rw [addArc, if_neg]
  exact Bool.false_ne_true

theorem withoutArcs_addArc (h : r.data.Lists source r.label) (plugin : String) (arc : Arc) :
    (r.addArc source plugin arc).withoutArcs = r.withoutArcs := by
  rw [addArc]
  split
  · rw [withoutArcs, withoutArcs, CoverageData.withoutArcs_addArc plugin h]
  · rfl

end AddArc

variable {r : Recorder} {step : MeasuredStep}

theorem recordArcs_withoutArcs (r : Recorder) (step : MeasuredStep)
    (position? : Option Position) : r.withoutArcs.recordArcs step position? = r.withoutArcs := by
  cases position? with
  | none => exact addArc_withoutArcs ..
  | some position =>
    rw [recordArcs, exitFrom]
    split <;> simp only [addArc_withoutArcs]

theorem withoutArcs_recordArcs {position? : Option Position}
    (hstep : r.data.Lists step.source r.label)
    (hposition : ∀ position ∈ position?, r.data.Lists position.source r.label) :
    (r.recordArcs step position?).withoutArcs = r.withoutArcs := by
  cases position? with
  | none => exact withoutArcs_addArc hstep ..
  | some position =>
    have hlisted : r.data.Lists position.source r.label := hposition position rfl
    have hlabel : (r.exitFrom position).label = r.label := label_addArc ..
    rw [recordArcs]
    split
    · exact withoutArcs_addArc hstep ..
    · rw [withoutArcs_addArc, exitFrom, withoutArcs_addArc hlisted]
      rw [hlabel]
      exact (lists_addArc hlisted).2 hstep

/-- A measured step is the same without arcs. -/
theorem withoutArcs_execute (hr : r.Anchored) {position? : Option Position}
    {outer : List (Option Position)} (hstack : r.stack = position? :: outer) :
    (r.execute step).withoutArcs = r.withoutArcs.execute step := by
  have hforgot : r.withoutArcs.stack = position? :: outer := hstack
  rw [execute_of_cons hstack, execute_of_cons hforgot]
  generalize hwritten : ({ r with
    data := r.data.addLines step.source step.plugin r.label step.range.lines } : Recorder) = written
  have hlines : written.withoutArcs =
      { r.withoutArcs with
        data := r.withoutArcs.data.addLines step.source step.plugin r.label step.range.lines } := by
    subst hwritten
    simp only [withoutArcs, CoverageData.withoutArcs_addLines]
  have hlisted : ∀ position ∈ position?, written.data.Lists position.source written.label := by
    intro position hposition
    subst hwritten
    apply CoverageData.lists_addLines.2
    apply Or.inl
    apply hr position
    rw [hstack, List.head?_cons, Option.join_some]
    exact hposition
  have hstep : written.data.Lists step.source written.label := by
    subst hwritten
    exact CoverageData.lists_addLines.2 (.inr ⟨sameSource_self _, rfl⟩)
  have harcs : (written.recordArcs step position?).withoutArcs =
      written.withoutArcs.recordArcs step position? := by
    rw [withoutArcs_recordArcs hstep hlisted, recordArcs_withoutArcs]
  rw [hlines] at harcs
  exact congrArg (fun r : Recorder => { r with stack := some step.position :: outer }) harcs

/-- The end of an activation is the same without arcs. -/
theorem withoutArcs_leave (hr : r.Anchored) : r.leave.withoutArcs = r.withoutArcs.leave := by
  cases hstack : r.stack with
  | nil =>
    have hforgot : r.withoutArcs.stack = [] := hstack
    rw [leave, leave, hstack, hforgot]
    have hcontext : r.withoutArcs.context = r.context := rfl
    rw [hcontext]
    split <;> rfl
  | cons position? outer =>
    have hforgot : r.withoutArcs.stack = position? :: outer := hstack
    rw [leave_of_cons hstack, leave_of_cons hforgot]
    cases position? with
    | none => rfl
    | some position =>
      have hexit : (r.exitFrom position).data.withoutArcs = r.data.withoutArcs :=
        congrArg Recorder.data (withoutArcs_addArc (hr position (by rw [hstack]; rfl)) _ _)
      simp only [Option.elim_some, withoutArcs, hexit]
      rfl

/-- Whatever an event comes to, it comes to the same without arcs. -/
theorem withoutArcs_take (hr : r.Anchored) (signal : Signal) :
    (r.take signal).withoutArcs = r.withoutArcs.take signal := by
  have hentered : r.ensureEntered.withoutArcs = r.withoutArcs.ensureEntered := by
    rw [ensureEntered, ensureEntered]
    have hstack : r.withoutArcs.stack = r.stack := rfl
    rw [hstack]
    split <;> rfl
  cases signal with
  | leave => exact withoutArcs_leave hr
  | enter given =>
    cases given with
    | none => rfl
    | some label =>
      have hcontext : r.withoutArcs.context = r.context := rfl
      rw [take, take, hcontext]
      split <;> rfl
  | line step =>
    cases step with
    | none => exact hentered
    | some step =>
      obtain ⟨position?, outer, hstack, -, -⟩ := r.exists_stack_ensureEntered
      rw [take, take, withoutArcs_execute hr.ensureEntered hstack, hentered]

end Recorder

namespace Collector

variable {σ : Type} (host : Host) (plugins : Registry σ) (events : List Event) (world : σ)

/-- At an anchored moment, an event comes out the same without arcs. -/
theorem step_withoutArcs {c : Collector σ} (hr : c.recorder.Anchored) (event : Event) (world : σ) :
    (c.mapRecorder withoutArcs).step event world =
      ((c.step event world).1, (c.step event world).2.1.mapRecorder withoutArcs,
        (c.step event world).2.2) := by
  have hcontext : c.recorder.withoutArcs.context.isNone = c.recorder.context.isNone := rfl
  have hmoved : ((c.step event world).2.1.mapRecorder fun _ =>
      c.recorder.withoutArcs.take (c.signal event world)) =
        (c.step event world).2.1.mapRecorder withoutArcs := by
    rw [mapRecorder, mapRecorder, (c.step_frame event world).1, withoutArcs_take hr]
  rw [c.step_mapRecorder hcontext, hmoved]

/-- A run without branches is the run with branches, with its arcs forgotten. -/
theorem run_withoutArcs :
    (start host plugins false).run events world =
      (((start host plugins true).run events world).1.mapRecorder withoutArcs,
        ((start host plugins true).run events world).2) := by
  induction events using List.reverseRecOn with
  | nil => rfl
  | append_singleton events event ih =>
    rw [run_append, run_append, run_cons, run_nil, run_cons, run_nil, ih,
      step_withoutArcs anchored_run]

/-- Measuring branches adds arcs and nothing else. Every event has the same result and
leaves the same world, and plug-ins that keep a record of their calls note the same
ones. Without the arcs the data is that of the run without branches: the same files
in the same order, with the same credit, labels and lines. A file is recorded, and
recorded under a label, only when a line of it was measured, and under that label. -/
theorem measuring_branches_adds_arcs :
    let run branch := (start host plugins branch).run events world
    let told branch := (start host plugins.recorded branch).run events ⟨world, []⟩
    (∀ event, ((run true).1.step event (run true).2).1 = ((run false).1.step event (run false).2).1 ∧
      ((run true).1.step event (run true).2).2.2 = ((run false).1.step event (run false).2).2.2 ∧
      ((told true).1.step event (told true).2).2.2.calls =
        ((told false).1.step event (told false).2).2.2.calls) ∧
    (run true).1.data.withoutArcs = (run false).1.data ∧
    (run true).1.data.measuredFiles = (run false).1.data.measuredFiles ∧
    (∀ source, (run true).1.data.tracer? source = (run false).1.data.tracer? source ∧
      (run true).1.data.contexts source = (run false).1.data.contexts source ∧
      ∀ label, (run true).1.data.linesIn source label = (run false).1.data.linesIn source label ∧
        (run false).1.data.arcsIn source label = ∅) ∧
    (∀ source ∈ (run true).1.data.measuredFiles, (run true).1.data.contexts source ≠ []) ∧
    ∀ source, ∀ label ∈ (run true).1.data.contexts source,
      ∃ step, (start host plugins true).Measures events world step label ∧
        sameSource step.source source := by
  intro run told
  have hrun : run false = ((run true).1.mapRecorder withoutArcs, (run true).2) :=
    run_withoutArcs host plugins events world
  have htold : told false = ((told true).1.mapRecorder withoutArcs, (told true).2) :=
    run_withoutArcs host plugins.recorded events ⟨world, []⟩
  have hdata : (run false).1.data = (run true).1.data.withoutArcs := by
    rw [hrun]
    rfl
  refine ⟨?_, hdata.symm, ?_, ?_, ?_, ?_⟩
  · intro event
    rw [hrun, htold, step_withoutArcs anchored_run, step_withoutArcs anchored_run]
    exact ⟨rfl, rfl, rfl⟩
  · rw [hdata, CoverageData.measuredFiles_withoutArcs]
  · intro source
    rw [hdata, CoverageData.tracer?_withoutArcs, CoverageData.contexts_withoutArcs]
    refine ⟨rfl, rfl, ?_⟩
    intro label
    rw [CoverageData.linesIn_withoutArcs, CoverageData.arcsIn_withoutArcs]
    exact ⟨rfl, rfl⟩
  · intro source hsource
    obtain ⟨label, hlists⟩ := exists_lists_of_mem_measuredFiles hsource
    exact List.ne_nil_of_mem (CoverageData.mem_contexts_iff.2 hlists)
  · intro source label hlabel
    exact lists_run_iff.1 (CoverageData.mem_contexts_iff.1 hlabel)

end Collector

end Coverage
