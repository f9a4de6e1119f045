/-
# Which files and contexts are listed

Recorded data lists a file under a label as soon as anything was recorded there,
were it a set of no lines. What lists a file is a measured line and nothing else:
the arc that an activation takes when it leaves a file, or when it ends, goes where
a line of that activation was recorded before.

The invariant is `Recorder.Anchored`: the place where the innermost activation is
has its entry under the label in force. It is kept because an activation works
under one label, and its steps are the lines that were measured under that label.
-/
import Mathlib.Data.List.Induction
import Coverage.Proofs.Activation.Recording
import Coverage.Proofs.Recorder.Credit

namespace Coverage

open Recorder

namespace CoverageData

/-- A file is listed with a label among its contexts. -/
def Lists (data : CoverageData) (source : Path) (label : String) : Prop :=
  (data.measured? source label).isSome

variable {data : CoverageData} {source path : Path} {plugin context label : String}

theorem mem_contexts_iff : label ∈ data.contexts source ↔ data.Lists source label := by
  rw [contexts, Lists, measured?]
  cases data.file? source with
  | none => simp
  | some file => exact SortedMap.mem_keys_iff

/-- Spellings of one file are listed under the same labels. -/
theorem lists_congr (h : sameSource source path = true) :
    data.Lists source label ↔ data.Lists path label := by
  rw [Lists, Lists, measured?, measured?, file?, file?, SortedMap.get?_congr (sameSource_iff.1 h)]

/-- A recording lists its file under its label. -/
theorem lists_record {change : Measured → Measured} :
    (data.record source plugin context change).Lists path label ↔
      data.Lists path label ∨ sameSource source path ∧ label = context := by
  rw [Lists, measured?_record]
  split
  · next h => simp only [Option.isSome_some, h.1, h.2, and_self, or_true]
  · next h => rw [Lists, or_iff_left h]

theorem lists_addLines {lines : LineSet} :
    (data.addLines source plugin context lines).Lists path label ↔
      data.Lists path label ∨ sameSource source path ∧ label = context := lists_record

/-- An arc lists nothing new in a file that is listed. -/
theorem lists_addArc (h : data.Lists source context) {arc : Arc} :
    (data.addArc source plugin context arc).Lists path label ↔ data.Lists path label := by
  rw [addArc, lists_record]
  apply or_iff_left_of_imp
  intro hsame
  obtain ⟨hsource, rfl⟩ := hsame
  exact (lists_congr hsource).1 h

end CoverageData

namespace Recorder

variable {r : Recorder} {source path : Path} {label : String} {step : MeasuredStep}

/-- The file that the innermost activation is in is listed under the label in force. -/
def Anchored (r : Recorder) : Prop :=
  ∀ position ∈ r.stack.head?.join, r.data.Lists position.source r.label

theorem lists_addArc (h : r.data.Lists source r.label) {plugin : String} {arc : Arc} :
    (r.addArc source plugin arc).data.Lists path label ↔ r.data.Lists path label := by
  rw [addArc]
  split
  · exact CoverageData.lists_addArc h
  · rfl

theorem lists_recordArcs {position? : Option Position} (hstep : r.data.Lists step.source r.label)
    (hposition : ∀ position ∈ position?, r.data.Lists position.source r.label) :
    (r.recordArcs step position?).data.Lists path label ↔ r.data.Lists path label := by
  cases position? with
  | none => exact lists_addArc hstep
  | some position =>
    have hexit : ∀ {path label}, (r.exitFrom position).data.Lists path label ↔
        r.data.Lists path label := lists_addArc (hposition position rfl)
    have hlabel : (r.exitFrom position).label = r.label := label_addArc ..
    rw [recordArcs]
    split
    · exact lists_addArc hstep
    · rw [lists_addArc (by rw [hlabel]; exact hexit.2 hstep), hexit]

/-- A measured step lists its file under the label in force, and its arcs list nothing. -/
theorem lists_execute (hr : r.Anchored) {position? : Option Position}
    {outer : List (Option Position)} (hstack : r.stack = position? :: outer) :
    (r.execute step).data.Lists source label ↔
      r.data.Lists source label ∨ r.label = label ∧ sameSource step.source source := by
  rw [data_execute hstack, lists_recordArcs, CoverageData.lists_addLines, and_comm, eq_comm]
  · exact CoverageData.lists_addLines.2 (.inr ⟨sameSource_self _, rfl⟩)
  · intro position hposition
    apply CoverageData.lists_addLines.2
    apply Or.inl
    apply hr position
    rw [hstack, List.head?_cons, Option.join_some]
    exact hposition

/-- An activation that ends lists nothing. -/
theorem lists_leave (hr : r.Anchored) :
    r.leave.data.Lists source label ↔ r.data.Lists source label := by
  cases hstack : r.stack with
  | nil =>
    rw [leave, hstack]
    split <;> rfl
  | cons position? outer =>
    rw [leave_of_cons hstack]
    cases position? with
    | none => rfl
    | some position => exact lists_addArc (hr position (by rw [hstack]; rfl))

theorem Anchored.ensureEntered (hr : r.Anchored) : r.ensureEntered.Anchored := by
  rw [Recorder.ensureEntered]
  split
  · intro position hposition
    cases hposition
  · exact hr

/-- Whatever an event comes to, only a measured step lists anything. -/
theorem lists_take (hr : r.Anchored) (signal : Signal) :
    (r.take signal).data.Lists source label ↔
      r.data.Lists source label ∨
        ∃ step, signal = .line (some step) ∧ r.label = label ∧ sameSource step.source source := by
  obtain ⟨position?, outer, hstack, hdata, hlabel⟩ := r.exists_stack_ensureEntered
  cases signal with
  | enter given => simp [(frame_take_enter r given).1]
  | leave => simp [take, lists_leave hr]
  | line step =>
    cases step with
    | none => simp [take, hdata]
    | some step => simp [take, lists_execute hr.ensureEntered hstack, hdata, hlabel]

end Recorder

namespace Collector

variable {σ : Type}

variable (host : Host) (plugins : Registry σ) (branch : Bool) (events : List Event) (world : σ)

/-- The place of the innermost activation was measured under the label in force. -/
theorem measures_of_position {position : Position}
    (h : position ∈ ((start host plugins branch).run events world).1.recorder.stack.head?.join) :
    ∃ step, (start host plugins branch).Measures events world step
        ((start host plugins branch).run events world).1.recorder.label ∧
      position = step.position := by
  have hfollows := follows_run host plugins branch events world
  rw [hfollows.stack] at h
  cases hopened : ((start host plugins branch).history events world).opened with
  | nil =>
    rw [hopened] at h
    cases h
  | cons a outer =>
    rw [hopened, List.map_cons, List.head?_cons, Option.join_some, Activation.position?,
      Option.mem_def, Option.map_eq_some_iff] at h
    obtain ⟨last, hlast, rfl⟩ := h
    have hmem : a ∈ ((start host plugins branch).history events world).activations :=
      History.mem_activations.2 (.inl (hopened ▸ List.mem_cons_self))
    have hmeasures := (mem_steps_iff host plugins branch events world).1
      ⟨a, hmem, rfl, List.mem_of_getLast? hlast⟩
    rw [hfollows.label_of_cons hopened]
    exact ⟨last, hmeasures, rfl⟩

variable {host plugins branch events world}

/-- What lists the measured lines of a run is anchored. -/
theorem anchored_of_lists
    (h : ∀ step label, (start host plugins branch).Measures events world step label →
      ((start host plugins branch).run events world).1.data.Lists step.source label) :
    ((start host plugins branch).run events world).1.recorder.Anchored := by
  intro position hposition
  obtain ⟨step, hmeasures, rfl⟩ := measures_of_position host plugins branch events world hposition
  exact h step _ hmeasures

/-- A run lists a file under a label exactly when it measured a line there. -/
theorem lists_run_iff {source : Path} {label : String} :
    ((start host plugins branch).run events world).1.data.Lists source label ↔
      ∃ step, (start host plugins branch).Measures events world step label ∧
        sameSource step.source source := by
  induction events using List.reverseRecOn generalizing source label with
  | nil =>
    constructor
    · intro h
      cases h
    · intro h
      obtain ⟨_, hmeasures, -⟩ := h
      exact absurd hmeasures not_measures_nil
  | append_singleton events event ih =>
    have hanchored : ((start host plugins branch).run events world).1.recorder.Anchored := by
      apply anchored_of_lists
      intro step label hmeasures
      exact ih.2 ⟨step, hmeasures, sameSource_self _⟩
    rw [run_append, run_cons, run_nil, data, (step_frame ..).1, lists_take hanchored]
    simp only [measures_append_iff, or_and_right, exists_or, and_assoc]
    exact or_congr_left ih

/-- At every moment of a run, the innermost activation is where something was recorded. -/
theorem anchored_run : ((start host plugins branch).run events world).1.recorder.Anchored := by
  apply anchored_of_lists
  intro step label hmeasures
  exact lists_run_iff.2 ⟨step, hmeasures, sameSource_self _⟩

/-- Open activations of a run are in files that have their credit. -/
theorem credited_run : ((start host plugins branch).run events world).1.recorder.Credited := by
  induction events using List.reverseRecOn with
  | nil =>
    intro position hposition
    cases hposition
  | append_singleton events event ih =>
    rw [run_append, run_cons, run_nil, (step_frame ..).1]
    exact credited_take ih _

/-- A run lists every file that it recorded under some label. -/
theorem exists_lists_of_mem_measuredFiles {source : Path}
    (h : source ∈ ((start host plugins branch).run events world).1.data.measuredFiles) :
    ∃ label, ((start host plugins branch).run events world).1.data.Lists source label := by
  replace h := CoverageData.isSome_tracer?_of_mem h
  induction events using List.reverseRecOn with
  | nil => cases h
  | append_singleton events event ih =>
    rw [run_append, run_cons, run_nil, data, (step_frame ..).1] at h ⊢
    rw [tracer?_take credited_run, Option.isSome_or, Bool.or_eq_true_iff] at h
    simp only [lists_take anchored_run]
    rcases h with hold | hnew
    · obtain ⟨label, hlists⟩ := ih hold
      exact ⟨label, .inl hlists⟩
    · obtain ⟨plugin, hcredit⟩ := Option.isSome_iff_exists.1 hnew
      obtain ⟨step, hsignal, hsame, -⟩ := Signal.exists_step_of_credit? hcredit
      exact ⟨_, .inr ⟨step, hsignal, rfl, hsame⟩⟩

end Collector

end Coverage
