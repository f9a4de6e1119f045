/-
# Where a recording comes from

A recorder is a sum of recordings, and an event adds a few to it: the lines of the
step that was measured, the arc into it, and the arc out of the file that the
activation leaves. Each of them is made under the name of the plug-in whose
disposition measured a line, this one or the one before it in the activation, so all
that a run recorded goes back to measured lines and to those who claimed their files.

A file keeps the name of the plug-in that recorded first. Nothing compares it with
the names of later recordings, so where two plug-ins claim executed files of one
source file, the data of both is credited to the first. `Shared` is such a run.
-/
import Coverage.Proofs.Activation.Coordinates
import Coverage.Proofs.Collector.Routing
import Coverage.Proofs.Data.Recordings

namespace Coverage

variable {σ : Type}

open Recorder

/-! ## The recordings of an event -/

/-- The recording of an activation that leaves the code at a position. -/
def Position.exit (position : Position) (label : String) : Recording :=
  ⟨position.source, position.plugin, label, .arc ⟨position.lastLine, boundary⟩⟩

namespace MeasuredStep

variable (step : MeasuredStep) (label : String)

/-- The recording of an arc into a step. -/
def entry (source : Int) : Recording :=
  ⟨step.source, step.plugin, label, .arc ⟨source, step.range.first⟩⟩

/-- The recordings of the arcs of a step, given where its activation was before. -/
def arcs : Option Position → List Recording
  | none => [step.entry label boundary]
  | some position =>
    if sameSource position.source step.source then [step.entry label position.lastLine]
    else [position.exit label, step.entry label boundary]

/-- The recording of the lines of a step. -/
def recording : Recording := ⟨step.source, step.plugin, label, .lines step.range.lines⟩

variable {step label}

/-- The arcs of a step are recorded for the step, or for the place that was left. -/
theorem mem_arcs {recording : Recording} {position? : Option Position}
    (h : recording ∈ step.arcs label position?) :
    recording.context = label ∧
      (recording.source = step.source ∧ recording.plugin = step.plugin ∨
        ∃ position ∈ position?, recording.source = position.source ∧
          recording.plugin = position.plugin) := by
  cases position? with
  | none =>
    rw [List.mem_singleton.1 h]
    exact ⟨rfl, .inl ⟨rfl, rfl⟩⟩
  | some position =>
    rw [arcs] at h
    split at h
    · rw [List.mem_singleton.1 h]
      exact ⟨rfl, .inl ⟨rfl, rfl⟩⟩
    · rcases List.mem_cons.1 h with rfl | h
      · exact ⟨rfl, .inr ⟨position, rfl, rfl, rfl⟩⟩
      · rw [List.mem_singleton.1 h]
        exact ⟨rfl, .inl ⟨rfl, rfl⟩⟩

end MeasuredStep

namespace Recorder

variable (r : Recorder)

/-- What a recorder adds to its data for what an event came to, in order. -/
def recordings : Signal → List Recording
  | .line (some step) =>
    step.recording r.label ::
      if r.branch then step.arcs r.label r.stack.head?.join else []
  | .leave => if r.branch then r.stack.head?.join.toList.map (·.exit r.label) else []
  | .line none | .enter _ => []

theorem data_addArc (source : Path) (plugin : String) (arc : Arc) :
    (r.addArc source plugin arc).data =
      r.data.addAll (if r.branch then [⟨source, plugin, r.label, .arc arc⟩] else []) := by
  rw [addArc]
  split <;> rfl

theorem data_recordArcs (step : MeasuredStep) (position? : Option Position) :
    (r.recordArcs step position?).data =
      r.data.addAll (if r.branch then step.arcs r.label position? else []) := by
  cases position? with
  | none => exact r.data_addArc ..
  | some position =>
    rw [recordArcs, MeasuredStep.arcs]
    split
    · exact r.data_addArc ..
    · rw [data_addArc, exitFrom, data_addArc, branch_addArc, label_addArc,
        ← CoverageData.addAll_append]
      congr 1
      split <;> rfl

theorem data_execute_of_cons {position? : Option Position} {outer : List (Option Position)}
    (hstack : r.stack = position? :: outer) (step : MeasuredStep) :
    (r.execute step).data =
      r.data.addAll (step.recording r.label ::
        if r.branch then step.arcs r.label position? else []) := by
  rw [data_execute hstack, data_recordArcs]
  rfl

theorem head?_stack_ensureEntered : r.ensureEntered.stack.head?.join = r.stack.head?.join := by
  rw [ensureEntered]
  cases hstack : r.stack with
  | nil => rfl
  | cons => simp [hstack]

theorem data_leave : r.leave.data = (r.stack.head?.join.elim r r.exitFrom).data := by
  cases hstack : r.stack with
  | nil =>
    rw [leave, hstack]
    split <;> rfl
  | cons => rw [leave_of_cons hstack, List.head?_cons, Option.join_some]

/-- The data of a recorder is the sum of its recordings, at every event. -/
theorem data_take (signal : Signal) :
    (r.take signal).data = r.data.addAll (r.recordings signal) := by
  cases signal with
  | enter given => exact (r.frame_take_enter given).1
  | leave =>
    rw [take, data_leave, recordings]
    cases r.stack.head?.join with
    | none =>
      dsimp only [Option.elim_none]
      split <;> rfl
    | some position => exact r.data_addArc ..
  | line step =>
    obtain ⟨position?, outer, hstack, hdata, hlabel⟩ := r.exists_stack_ensureEntered
    cases step with
    | none => exact hdata
    | some step =>
      have hposition : r.stack.head?.join = position? := by
        rw [← head?_stack_ensureEntered, hstack, List.head?_cons, Option.join_some]
      rw [take, data_execute_of_cons _ hstack, recordings, hposition, hdata, hlabel,
        branch_ensureEntered]

/-- A recording is made under the label in force, by the plug-in and in the file of the step
that the event came to, or of the place where the innermost activation is. -/
theorem mem_recordings {signal : Signal} {recording : Recording}
    (h : recording ∈ r.recordings signal) :
    recording.context = r.label ∧
      ((∃ step, signal = .line (some step) ∧ recording.source = step.source ∧
        recording.plugin = step.plugin) ∨
      ∃ position ∈ r.stack.head?.join, recording.source = position.source ∧
        recording.plugin = position.plugin) := by
  cases signal with
  | enter given => cases h
  | leave =>
    rw [recordings] at h
    split at h
    · obtain ⟨position, hposition, rfl⟩ := List.mem_map.1 h
      exact ⟨rfl, .inr ⟨position, Option.mem_toList.1 hposition, rfl, rfl⟩⟩
    · cases h
  | line step =>
    cases step with
    | none => cases h
    | some step =>
      rcases List.mem_cons.1 h with rfl | h
      · exact ⟨rfl, .inl ⟨step, rfl, rfl, rfl⟩⟩
      · split at h
        · obtain ⟨hcontext, hsource | hposition⟩ := MeasuredStep.mem_arcs h
          · exact ⟨hcontext, .inl ⟨step, rfl, hsource⟩⟩
          · exact ⟨hcontext, .inr hposition⟩
        · cases h

end Recorder

namespace Collector

/-! ## The recordings of a run -/

/-- What a run adds to its data, in order. -/
def recordings (c : Collector σ) : List Event → σ → List Recording
  | [], _ => []
  | event :: rest, world =>
    c.recorder.recordings (c.signal event world) ++
      (c.step event world).2.1.recordings rest (c.step event world).2.2

theorem recordings_append (c : Collector σ) (first second : List Event) (world : σ) :
    c.recordings (first ++ second) world =
      c.recordings first world ++
        (c.run first world).1.recordings second (c.run first world).2 := by
  induction first generalizing c world with
  | nil => rfl
  | cons event first ih =>
    rw [List.cons_append, recordings, recordings, ih, run_cons, List.append_assoc]

/-- One more event adds its own recordings. -/
theorem recordings_concat (c : Collector σ) (events : List Event) (event : Event) (world : σ) :
    c.recordings (events ++ [event]) world =
      c.recordings events world ++
        (c.run events world).1.recorder.recordings
          ((c.run events world).1.signal event (c.run events world).2) := by
  rw [recordings_append, recordings, recordings, List.append_nil]

/-- The data of a run is the sum of its recordings. -/
theorem data_run (c : Collector σ) (events : List Event) (world : σ) :
    (c.run events world).1.data = c.data.addAll (c.recordings events world) := by
  induction events generalizing c world with
  | nil => rfl
  | cons event events ih =>
    rw [run_cons, ih, recordings, CoverageData.addAll_append, data, data, (c.step_frame ..).1,
      data_take]

/-! ## Back to measured lines, and to claims -/

/-- A line of a run was measured, with this step and under this label, by a disposition
that the entry claimed. -/
def MeasuresBy (first : Collector σ) (events : List Event) (world : σ) (entry : RegistryEntry σ)
    (step : MeasuredStep) (label : String) : Prop :=
  ∃ before frame disposition, before ++ [.line frame] <+: events ∧
    ((first.run before world).1.shouldTrace frame.filename (first.run before world).2).1 =
      .ok (some disposition) ∧
    first.ClaimedIn (before ++ [.line frame]) world frame.filename entry disposition ∧
    (first.run before world).1.measuredStep frame (first.run before world).2 = some step ∧
    step.plugin = disposition.plugin ∧ (first.run before world).1.recorder.label = label

namespace MeasuresBy

variable {first : Collector σ} {events : List Event} {world : σ} {entry : RegistryEntry σ}
  {step : MeasuredStep} {label : String}

theorem measures (h : first.MeasuresBy events world entry step label) :
    first.Measures events world step label := by
  obtain ⟨before, frame, _, hoccurs, -, -, hmeasured, -, hlabel⟩ := h
  exact ⟨before, frame, hoccurs, hmeasured, hlabel⟩

/-- The step carries the name of the entry. -/
theorem plugin_eq (h : first.MeasuresBy events world entry step label) :
    step.plugin = entry.name := by
  obtain ⟨_, _, _, -, -, hclaimed, -, hplugin, -⟩ := h
  exact hplugin.trans hclaimed.plugin_eq

theorem mem (h : first.MeasuresBy events world entry step label) :
    entry ∈ first.plugins.withCapability .fileTracer := by
  obtain ⟨_, _, _, -, -, hclaimed, -⟩ := h
  exact hclaimed.mem

end MeasuresBy

section Run

variable {host : Host} {plugins : Registry σ} {branch : Bool} {events : List Event} {world : σ}

/-- Every measured line goes back to the entry that claimed its file. -/
theorem exists_measuresBy {step : MeasuredStep} {label : String}
    (h : (start host plugins branch).Measures events world step label) :
    ∃ entry, (start host plugins branch).MeasuresBy events world entry step label := by
  obtain ⟨before, frame, hoccurs, hmeasured, hlabel⟩ := h
  obtain ⟨disposition, _, _, _, _, _, _, hasked, -, -, -, hmade⟩ :=
    (measuredStep_eq_some_iff _).1 hmeasured
  have hoffered := congrArg Prod.fst hasked
  obtain ⟨entry, hclaimed⟩ := claimedIn_of_shouldTrace hoffered
  exact ⟨entry, before, frame, disposition, hoccurs, hoffered, hclaimed, hmeasured,
    congrArg MeasuredStep.plugin hmade, hlabel⟩

/-- Every recording of a run was made for a line that the run measured under its label, in the
file of that line and under the name that the line carries. -/
theorem exists_measures_of_mem_recordings {recording : Recording}
    (h : recording ∈ (start host plugins branch).recordings events world) :
    ∃ step, (start host plugins branch).Measures events world step recording.context ∧
      recording.source = step.source ∧ recording.plugin = step.plugin := by
  induction events using List.reverseRecOn with
  | nil => cases h
  | append_singleton events event ih =>
    rw [recordings_concat] at h
    rcases List.mem_append.1 h with hearlier | hnew
    · obtain ⟨step, hmeasures, hstep⟩ := ih hearlier
      exact ⟨step, measures_append_iff.2 (.inl hmeasures), hstep⟩
    · obtain ⟨hlabel, ⟨step, hsignal, hstep⟩ | ⟨position, hposition, hstep⟩⟩ :=
        mem_recordings _ hnew
      · exact ⟨step, measures_append_iff.2 (.inr ⟨hsignal, hlabel.symm⟩), hstep⟩
      -- an arc out of a file is recorded where the activation was, which was measured before
      · obtain ⟨step, hmeasures, rfl⟩ :=
          measures_of_position host plugins branch events world hposition
        rw [hlabel]
        exact ⟨step, measures_append_iff.2 (.inl hmeasures), hstep⟩

/-- Every recording of a run was made through a disposition that an entry claimed, and under
its name. -/
theorem exists_measuresBy_of_mem_recordings {recording : Recording}
    (h : recording ∈ (start host plugins branch).recordings events world) :
    ∃ entry step,
      (start host plugins branch).MeasuresBy events world entry step recording.context ∧
        recording.source = step.source ∧ recording.plugin = entry.name := by
  obtain ⟨step, hmeasures, hsource, hplugin⟩ := exists_measures_of_mem_recordings h
  obtain ⟨entry, hby⟩ := exists_measuresBy hmeasures
  exact ⟨entry, step, hby, hsource, hplugin.trans hby.plugin_eq⟩

/-- The lines of a run are those of its recordings. -/
theorem mem_linesIn_iff_mem_recordings {source : Path} {label : String} {line : Int} :
    line ∈ ((start host plugins branch).run events world).1.data.linesIn source label ↔
      ∃ recording ∈ (start host plugins branch).recordings events world,
        sameSource recording.source source ∧ label = recording.context ∧
          line ∈ recording.lines := by
  rw [data_run]
  exact (CoverageData.mem_linesIn_addAll _ _).trans (or_iff_right (SortedSet.not_mem_empty line))

/-- The arcs of a run are those of its recordings. -/
theorem mem_arcsIn_iff_mem_recordings {source : Path} {label : String} {arc : Arc} :
    arc ∈ ((start host plugins branch).run events world).1.data.arcsIn source label ↔
      ∃ recording ∈ (start host plugins branch).recordings events world,
        sameSource recording.source source ∧ label = recording.context ∧
          recording.arc? = some arc := by
  rw [data_run]
  exact (CoverageData.mem_arcsIn_addAll _ _).trans (or_iff_right (SortedSet.not_mem_empty arc))

/-- The first recording for a file gives it its credit. -/
theorem tracer?_eq_first_recording (source : Path) :
    ((start host plugins branch).run events world).1.data.tracer? source =
      (((start host plugins branch).recordings events world).find? fun recording =>
        sameSource recording.source source).map (·.plugin) := by
  rw [data_run]
  exact (CoverageData.tracer?_addAll ..).trans Option.none_or

/-- Every measured line of a run makes a recording. -/
theorem recording_mem_of_measures {first : Collector σ} {step : MeasuredStep} {label : String}
    (h : first.Measures events world step label) :
    step.recording label ∈ first.recordings events world := by
  induction events using List.reverseRecOn with
  | nil => exact absurd h not_measures_nil
  | append_singleton events event ih =>
    rw [recordings_concat, List.mem_append]
    rcases measures_append_iff.1 h with hearlier | ⟨hsignal, rfl⟩
    · exact .inl (ih hearlier)
    · rw [hsignal]
      exact .inr List.mem_cons_self

end Run

/-- No other entry claimed the file of a line that was measured in a source file. -/
def SoleSource (first : Collector σ) (events : List Event) (world : σ) (source : Path)
    (entry : RegistryEntry σ) : Prop :=
  ∀ other step label, first.MeasuresBy events world other step label →
    sameSource step.source source → other = entry

/-- A tracer of an entry gave a line number for a source file under a label. -/
def Gave (first : Collector σ) (events : List Event) (world : σ) (source : Path)
    (entry : RegistryEntry σ) (label : String) (line : Int) : Prop :=
  ∃ step, first.MeasuresBy events world entry step label ∧ sameSource step.source source ∧
    (step.range.first ≤ line ∧ line ≤ step.range.last ∨
      line = step.range.first ∨ line = step.range.last)

section SoleSource

variable {host : Host} {plugins : Registry σ} {branch : Bool} {events : List Event} {world : σ}
  {source : Path} {entry : RegistryEntry σ} {label : String}

/-- The numbers of a measured line came from the tracers of the only entry that has a part in
the file. -/
theorem SoleSource.gave {step : MeasuredStep} {line : Int}
    (h : (start host plugins branch).SoleSource events world source entry)
    (hmeasures : (start host plugins branch).Measures events world step label)
    (hsame : sameSource step.source source)
    (hline : step.range.first ≤ line ∧ line ≤ step.range.last ∨
      line = step.range.first ∨ line = step.range.last) :
    (start host plugins branch).Gave events world source entry label line := by
  obtain ⟨other, hby⟩ := exists_measuresBy hmeasures
  have hother : other = entry := h other step label hby hsame
  exact ⟨step, hother ▸ hby, hsame, hline⟩

/-- An entry is the only one that has a part in a file when all recordings for the file carry
its name. -/
theorem soleSource_iff (hwell : plugins.WellFormed) (hentry : entry ∈ plugins.entries) :
    (start host plugins branch).SoleSource events world source entry ↔
      ∀ recording ∈ (start host plugins branch).recordings events world,
        sameSource recording.source source → recording.plugin = entry.name := by
  constructor
  · intro hsole recording hrecording hsame
    obtain ⟨other, step, hby, hsource, hplugin⟩ := exists_measuresBy_of_mem_recordings hrecording
    have hother : other = entry := hsole other step _ hby (hsource ▸ hsame)
    rw [hplugin, hother]
  · intro hall other step label hby hsame
    have hname : step.plugin = entry.name := hall _ (recording_mem_of_measures hby.measures) hsame
    have hother : other ∈ plugins.entries := Registry.mem_entries_of_mem_withCapability hby.mem
    exact List.inj_on_of_nodup_map hwell.names hother hentry (hby.plugin_eq.symm.trans hname)

end SoleSource

/-- The data of a run is the sum of its recordings, each of which was made through a
disposition that a registered file tracer claimed, and under its name. A file is credited to
the one that recorded first. It is the only one that recorded anything for the file exactly
when no line that was measured in the file had a disposition of another one, and then all
numbers that its reporter has to interpret came from its own tracers. -/
theorem recordings_go_back_to_claims (host : Host) (registrations : List (Registration σ))
    (branch : Bool) (events : List Event) (world : σ) :
    let plugins := (∅ : Registry σ).registerEach registrations
    let first := start host plugins branch
    let data := (first.run events world).1.data
    let recordings := first.recordings events world
    data = (∅ : CoverageData).addAll recordings ∧
    (∀ source label,
      (∀ line, line ∈ data.linesIn source label ↔ ∃ recording ∈ recordings,
        sameSource recording.source source ∧ label = recording.context ∧
          line ∈ recording.lines) ∧
      ∀ arc, arc ∈ data.arcsIn source label ↔ ∃ recording ∈ recordings,
        sameSource recording.source source ∧ label = recording.context ∧
          recording.arc? = some arc) ∧
    (∀ recording ∈ recordings, ∃ entry ∈ plugins.withCapability .fileTracer, ∃ step,
      first.MeasuresBy events world entry step recording.context ∧
        recording.source = step.source ∧ recording.plugin = entry.name) ∧
    ∀ source name, data.tracer? source = some name →
      (recordings.find? fun recording => sameSource recording.source source).map (·.plugin) =
        some name ∧
      ∃ entry ∈ plugins.withCapability .fileTracer, entry.name = name ∧
        plugins.fileReporter name source = entry.report source ∧
        ((∀ recording ∈ recordings, sameSource recording.source source →
          recording.plugin = name) ↔ first.SoleSource events world source entry) ∧
        (first.SoleSource events world source entry → ∀ label,
          (∀ line ∈ data.linesIn source label, first.Gave events world source entry label line) ∧
          ∀ arc ∈ data.arcsIn source label, ∀ line, line = arc.source ∨ line = arc.target →
            line ≠ boundary → first.Gave events world source entry label line) := by
  intro plugins first data recordings
  have hwell : plugins.WellFormed := Registry.WellFormed.empty.registerEach registrations
  have hclaimed : ∀ recording ∈ recordings, ∃ entry ∈ plugins.withCapability .fileTracer, ∃ step,
      first.MeasuresBy events world entry step recording.context ∧
        recording.source = step.source ∧ recording.plugin = entry.name := by
    intro recording hrecording
    obtain ⟨entry, step, hby, hrecorded⟩ := exists_measuresBy_of_mem_recordings hrecording
    exact ⟨entry, hby.mem, step, hby, hrecorded⟩
  refine ⟨data_run first events world, fun source label =>
    ⟨fun line => mem_linesIn_iff_mem_recordings, fun arc => mem_arcsIn_iff_mem_recordings⟩,
    hclaimed, ?_⟩
  intro source name hname
  replace hname : (recordings.find? fun recording => sameSource recording.source source).map
      (·.plugin) = some name := (tracer?_eq_first_recording source).symm.trans hname
  obtain ⟨recording, hfound, hplugin⟩ := Option.map_eq_some_iff.1 hname
  obtain ⟨entry, hentry, _, -, -, hrecorded⟩ :=
    hclaimed recording (List.mem_of_find?_eq_some hfound)
  obtain rfl : entry.name = name := hrecorded.symm.trans hplugin
  have hmem : entry ∈ plugins.entries := Registry.mem_entries_of_mem_withCapability hentry
  refine ⟨hname, entry, hentry, rfl, Registry.fileReporter_eq_report hwell hmem source,
    (soleSource_iff hwell hmem).symm, ?_⟩
  intro hsole label
  constructor
  · intro line hline
    obtain ⟨step, hmeasures, hsame, hwithin⟩ := mem_linesIn_run_iff.1 hline
    exact hsole.gave hmeasures hsame (.inl hwithin)
  · intro arc harc line hend hline
    obtain ⟨step, hmeasures, hsame, hends⟩ := exists_measures_of_mem_arcsIn harc hend hline
    exact hsole.gave hmeasures hsame (.inr hends)

/-! ## Two plug-ins and one source file -/

namespace Shared

/-- The page that both plug-ins credit. -/
def page : Path := ⟨"/s/page"⟩

/-- A plug-in that claims one executed file. -/
def tracing (identity typeName : String) (file : Path) : Plugin Unit where
  identity := identity
  typeName := typeName
  fileTracer filename :=
    Hook.answer (if filename = file then some { sourceFilename := fun world => (page, world) }
      else none)

/-- The plug-ins of a run. -/
def plugins : Registry Unit :=
  ((∅ : Registry Unit).register "site" .fileTracer (tracing "one" "Alpha" ⟨"/b/a"⟩)).register
    "site" .fileTracer (tracing "two" "Beta" ⟨"/b/b"⟩)

/-- A frame of the file that the first plug-in claims runs line 1, then one of the other file
runs line 2. -/
def events : List Event :=
  [.call ⟨⟨"/b/a"⟩, 1, "f"⟩, .line ⟨⟨"/b/a"⟩, 1, "f"⟩, .ret ⟨⟨"/b/a"⟩, 1, "f"⟩,
    .call ⟨⟨"/b/b"⟩, 2, "f"⟩, .line ⟨⟨"/b/b"⟩, 2, "f"⟩, .ret ⟨⟨"/b/b"⟩, 2, "f"⟩]

/-- The run before its events. -/
def first : Collector Unit := start ⟨∅, []⟩ plugins false

/-- What was recorded. -/
def data : CoverageData := (first.run events ()).1.data

/-- The page is credited to the first plug-in, and has line 2, which was measured by the other
one alone. -/
theorem line_of_another_plugin :
    data.tracer? page = some "site.Alpha" ∧ 2 ∈ data.linesIn page "" ∧
      ∀ entry step label, first.MeasuresBy events () entry step label →
        2 ∈ step.range.lines → entry.name ≠ "site.Alpha" := by
  refine ⟨by decide +kernel, by decide +kernel, ?_⟩
  intro entry step label hby hline
  have hothers : ∀ recording ∈ first.recordings events (), 2 ∈ recording.lines →
      recording.plugin ≠ "site.Alpha" := by decide +kernel
  rw [← hby.plugin_eq]
  exact hothers _ (recording_mem_of_measures hby.measures) hline

end Shared

end Collector

end Coverage
