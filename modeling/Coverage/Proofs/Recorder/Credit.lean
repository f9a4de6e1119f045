/-
# Who is credited with a file

A file is credited to the plug-in that recorded something for it first, and the
credit stays. What an activation writes when it leaves a file is no exception: it
was in that file before, so the file has its credit already. The credits of a run
are therefore read off its signals: the first measured step in a file decides.
-/
import Coverage.Proofs.Recorder.Operations

namespace Coverage

open Recorder

namespace CoverageData

variable {data : CoverageData} {source path : Path} {plugin context : String}

/-- Spellings of one file have one credit. -/
theorem tracer?_congr (h : sameSource source path = true) (data : CoverageData) :
    data.tracer? source = data.tracer? path := by
  rw [tracer?, tracer?, file?, file?, SortedMap.get?_congr (sameSource_iff.1 h)]

/-- Every file with recorded data is credited to a plug-in. -/
theorem isSome_tracer?_of_mem (h : source ∈ data.measuredFiles) : (data.tracer? source).isSome := by
  rw [tracer?, Option.isSome_map]
  exact SortedMap.isSome_get?_of_mem_keys h

theorem tracer?_addLines {lines : LineSet} :
    (data.addLines source plugin context lines).tracer? path =
      (data.tracer? path).or (if sameSource source path then some plugin else none) := by
  rw [addLines, tracer?_record]
  split <;> cases data.tracer? path <;> rfl

theorem tracer?_addArc_of_isSome (h : (data.tracer? source).isSome) {arc : Arc} :
    (data.addArc source plugin context arc).tracer? path = data.tracer? path := by
  rw [addArc, tracer?_record]
  split
  · next hsame =>
    rw [tracer?_congr hsame] at h
    obtain ⟨credit, hcredit⟩ := Option.isSome_iff_exists.1 h
    rw [hcredit, Option.getD_some]
  · rfl

end CoverageData

/-- Whom a signal credits with a file that has no credit yet. -/
def Signal.credit? (signal : Signal) (source : Path) : Option String :=
  match signal with
  | .line (some step) => if sameSource step.source source then some step.plugin else none
  | _ => none

/-- Only a measured step in a file credits it. -/
theorem Signal.exists_step_of_credit? {signal : Signal} {source : Path} {plugin : String}
    (h : signal.credit? source = some plugin) :
    ∃ step, signal = .line (some step) ∧ sameSource step.source source ∧ step.plugin = plugin := by
  cases signal with
  | enter given => cases h
  | leave => cases h
  | line step =>
    cases step with
    | none => cases h
    | some step =>
      rw [credit?] at h
      split at h
      · next hsame => exact ⟨step, rfl, hsame, Option.some.inj h⟩
      · cases h

namespace Recorder

/-- The files that open activations are in have their credit. -/
def Credited (r : Recorder) : Prop :=
  ∀ position, some position ∈ r.stack → (r.data.tracer? position.source).isSome

variable {r : Recorder}

theorem tracer?_addArc (r : Recorder) {source : Path} (h : (r.data.tracer? source).isSome)
    (plugin : String) (arc : Arc) (path : Path) :
    (r.addArc source plugin arc).data.tracer? path = r.data.tracer? path := by
  rw [addArc]
  split
  · exact CoverageData.tracer?_addArc_of_isSome h
  · rfl

theorem tracer?_recordArcs {step : MeasuredStep} {position? : Option Position}
    (hstep : (r.data.tracer? step.source).isSome)
    (hposition : ∀ position ∈ position?, (r.data.tracer? position.source).isSome) (path : Path) :
    (r.recordArcs step position?).data.tracer? path = r.data.tracer? path := by
  cases position? with
  | none => exact r.tracer?_addArc hstep ..
  | some position =>
    have hexit : ∀ path, (r.exitFrom position).data.tracer? path = r.data.tracer? path :=
      r.tracer?_addArc (hposition position rfl) _ _
    rw [recordArcs]
    split
    · exact r.tracer?_addArc hstep ..
    · rw [tracer?_addArc _ ((hexit _).symm ▸ hstep), hexit]

/-- A measured step credits its file to its plug-in, unless it has a credit. -/
theorem tracer?_execute {step : MeasuredStep} {position? : Option Position}
    {outer : List (Option Position)} (hr : r.Credited) (hstack : r.stack = position? :: outer)
    (path : Path) :
    (r.execute step).data.tracer? path =
      (r.data.tracer? path).or (Signal.credit? (.line (some step)) path) := by
  have hwritten : ∀ path, (r.data.addLines step.source step.plugin r.label
      step.range.lines).tracer? path =
        (r.data.tracer? path).or (Signal.credit? (.line (some step)) path) :=
    fun path => CoverageData.tracer?_addLines
  rw [data_execute hstack, tracer?_recordArcs, hwritten]
  · rw [hwritten, Signal.credit?, if_pos (sameSource_self _), Option.isSome_or, Option.isSome_some,
      Bool.or_true]
  · intro position hposition
    subst hposition
    rw [hwritten, Option.isSome_or, hr position (hstack ▸ List.mem_cons_self), Bool.true_or]

theorem tracer?_leave (hr : r.Credited) (path : Path) :
    r.leave.data.tracer? path = r.data.tracer? path := by
  rw [leave]
  cases hstack : r.stack with
  | nil => split <;> rfl
  | cons position? outer =>
    cases position? with
    | none => split <;> rfl
    | some position =>
      have hposition := hr position (hstack ▸ List.mem_cons_self)
      split <;> exact r.tracer?_addArc hposition ..

theorem mem_stack_ensureEntered {position : Position}
    (h : some position ∈ r.ensureEntered.stack) : some position ∈ r.stack := by
  rw [ensureEntered] at h
  split at h
  · rcases List.mem_cons.1 h with hnone | hmem
    · cases hnone
    · exact hmem
  · exact h

/-- The positions of a recorder after an event were there before, or are where the
event measured a step. -/
theorem source_of_mem_stack_take {signal : Signal} {position : Position}
    (h : some position ∈ (r.take signal).stack) :
    some position ∈ r.stack ∨ ∃ step, signal = .line (some step) ∧ position = step.position := by
  cases signal with
  | leave =>
    rw [take, stack_leave] at h
    exact .inl (List.mem_of_mem_tail h)
  | enter given =>
    rw [(frame_take_enter r given).2] at h
    rcases List.mem_cons.1 h with hnone | hmem
    · cases hnone
    · exact .inl hmem
  | line step =>
    obtain ⟨position?, outer, hstack, -, -⟩ := r.exists_stack_ensureEntered
    cases step with
    | none => exact .inl (mem_stack_ensureEntered h)
    | some step =>
      rw [take, (frame_execute hstack).2.2] at h
      rcases List.mem_cons.1 h with hmoved | hmem
      · exact .inr ⟨step, rfl, Option.some.inj hmoved⟩
      · apply Or.inl
        apply mem_stack_ensureEntered
        rw [hstack]
        exact List.mem_cons_of_mem _ hmem

/-- Whatever an event comes to, a file keeps its credit, and gets one from a measured
step only. -/
theorem tracer?_take (hr : r.Credited) (signal : Signal) (path : Path) :
    (r.take signal).data.tracer? path = (r.data.tracer? path).or (signal.credit? path) := by
  obtain ⟨position?, outer, hstack, hdata, -⟩ := r.exists_stack_ensureEntered
  cases signal with
  | leave => exact (tracer?_leave hr path).trans Option.or_none.symm
  | enter given =>
    rw [(frame_take_enter r given).1]
    exact Option.or_none.symm
  | line step =>
    cases step with
    | none =>
      rw [take, hdata]
      exact Option.or_none.symm
    | some step =>
      have hentered : r.ensureEntered.Credited := by
        intro position hposition
        rw [hdata]
        exact hr position (mem_stack_ensureEntered hposition)
      rw [take, tracer?_execute hentered hstack, hdata]

/-- Open activations are in files that have their credit, at every moment. -/
theorem credited_take (hr : r.Credited) (signal : Signal) : (r.take signal).Credited := by
  intro position hposition
  rw [tracer?_take hr, Option.isSome_or, Bool.or_eq_true_iff]
  rcases source_of_mem_stack_take hposition with hold | ⟨step, rfl, rfl⟩
  · exact .inl (hr position hold)
  · right
    rw [Signal.credit?, MeasuredStep.position, if_pos (sameSource_self _), Option.isSome_some]

/-- The first measured step in a file settles the credit. -/
theorem tracer?_foldl_take (hr : r.Credited) (signals : List Signal) (path : Path) :
    (signals.foldl take r).data.tracer? path =
      (r.data.tracer? path).or (signals.findSome? fun signal => signal.credit? path) := by
  induction signals generalizing r with
  | nil => rw [List.foldl_nil, List.findSome?_nil, Option.or_none]
  | cons signal signals ih =>
    rw [List.foldl_cons, ih (credited_take hr signal), tracer?_take hr, Option.or_assoc,
      List.findSome?_cons]
    cases signal.credit? path <;> rfl

end Recorder

end Coverage
