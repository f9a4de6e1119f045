/-
# What events come to

A collector does two things with an event: it asks the plug-ins, and it hands
what they said to its recorder. `Collector.signal` is what they said: whether the
start of a frame gave it a label, and which measured step a line came to. Taking
signals is a function of the recorder alone, and a run of the collector moves its
recorder exactly as the signals of the run do.

Nothing about a recorder is assumed here; `Recorder.take` is total on signals in
any order.
-/
import Coverage.Collector
import Coverage.Proofs.Data.Lookups

namespace Coverage

variable {σ : Type}

/-- What an event comes to for the recorder. -/
inductive Signal where
  /-- A frame started, with the label that a context switcher gave it, if any. -/
  | enter (given : Option String)
  /-- A line was executed, with what was measured of it, if anything. -/
  | line (step : Option MeasuredStep)
  /-- A frame ended. -/
  | leave
deriving DecidableEq, Repr

namespace Signal

/-- Whether the signal carries a step only if a measurable line ran. -/
def IsMeasured : Signal → Prop
  | .line (some step) => step.range ≠ .unmeasured
  | _ => True

end Signal

namespace Recorder

/-- Take what an event came to. A context that is active is not replaced. -/
def take (r : Recorder) : Signal → Recorder
  | .enter (some label) => if r.context.isNone then r.enter.startContext label else r.enter
  | .enter none => r.enter
  | .line (some step) => r.ensureEntered.execute step
  | .line none => r.ensureEntered
  | .leave => r.leave

end Recorder

namespace Collector

variable (c : Collector σ)

section MapRecorder

variable (change : Recorder → Recorder)

@[simp]
theorem recorder_mapRecorder : (c.mapRecorder change).recorder = change c.recorder := rfl

@[simp]
theorem host_mapRecorder : (c.mapRecorder change).host = c.host := rfl

@[simp]
theorem plugins_mapRecorder : (c.mapRecorder change).plugins = c.plugins := rfl

@[simp]
theorem known_mapRecorder : (c.mapRecorder change).known = c.known := rfl

end MapRecorder

/-! ## Asking -/

/-- Offering a file has three outcomes: it was known, the plug-ins failed, or
their answer is known from now on. -/
theorem shouldTrace_cases (filename : Path) (world : σ) :
    (∃ outcome, c.known.get? filename = some outcome ∧
      c.shouldTrace filename world = (.ok outcome, c, world)) ∨
    (∃ failure world', c.known.get? filename = none ∧
      c.plugins.fileTracer c.host filename world = (.error failure, world') ∧
      c.shouldTrace filename world = (.error failure, c, world')) ∨
    (∃ outcome world', c.known.get? filename = none ∧
      c.plugins.fileTracer c.host filename world = (.ok outcome, world') ∧
      c.shouldTrace filename world =
        (.ok outcome, { c with known := c.known.insert filename outcome }, world')) := by
  rw [shouldTrace]
  cases hknown : c.known.get? filename with
  | some outcome => exact .inl ⟨outcome, rfl, rfl⟩
  | none =>
    rcases hasked : c.plugins.fileTracer c.host filename world with ⟨failure | outcome, world'⟩
    · exact .inr (.inl ⟨failure, world', rfl, rfl, rfl⟩)
    · exact .inr (.inr ⟨outcome, world', rfl, rfl, rfl⟩)

/-- A file that is known is not offered. -/
theorem shouldTrace_of_known {filename : Path} {outcome : Option (Disposition σ)}
    (h : c.known.get? filename = some outcome) (world : σ) :
    c.shouldTrace filename world = (.ok outcome, c, world) := by rw [shouldTrace, h]

/-- A file that is not known comes out as it is offered. -/
theorem shouldTrace_of_unknown {filename : Path} (h : c.known.get? filename = none) (world : σ) :
    ((c.shouldTrace filename world).1, (c.shouldTrace filename world).2.2) =
      c.plugins.fileTracer c.host filename world := by
  rw [shouldTrace, h]
  rcases c.plugins.fileTracer c.host filename world with ⟨_ | _, _⟩ <;> rfl

/-- Offering a file changes nothing but what is known of files. -/
theorem shouldTrace_frame (filename : Path) (world : σ) :
    (c.shouldTrace filename world).2.1.recorder = c.recorder ∧
      (c.shouldTrace filename world).2.1.host = c.host ∧
      (c.shouldTrace filename world).2.1.plugins = c.plugins := by
  obtain ⟨_, _, hc⟩ | ⟨_, _, _, _, hc⟩ | ⟨_, _, _, _, hc⟩ := c.shouldTrace_cases filename world
  all_goals
    rw [hc]
    exact ⟨rfl, rfl, rfl⟩

theorem shouldTrace_mapRecorder (change : Recorder → Recorder) (filename : Path) (world : σ) :
    (c.mapRecorder change).shouldTrace filename world =
      ((c.shouldTrace filename world).1,
        (c.shouldTrace filename world).2.1.mapRecorder change,
        (c.shouldTrace filename world).2.2) := by
  obtain ⟨_, hknown, hc⟩ | ⟨_, _, hknown, hasked, hc⟩ | ⟨_, _, hknown, hasked, hc⟩ :=
    c.shouldTrace_cases filename world
  · rw [hc, shouldTrace, known_mapRecorder, hknown]
  · rw [hc, shouldTrace, known_mapRecorder, hknown, plugins_mapRecorder, host_mapRecorder]
    simp only [hasked]
  · rw [hc, shouldTrace, known_mapRecorder, hknown, plugins_mapRecorder, host_mapRecorder]
    simp only [hasked]
    rfl

/-- What the context switchers give a frame that starts. They are asked only
while no context is active; a failure gives nothing. -/
def givenLabel (frame : Frame) (world : σ) : Option String :=
  if c.recorder.context.isNone && c.plugins.hasContextSwitchers then
    match (c.plugins.dynamicContext frame world).1 with
    | .ok answer => answer
    | .error _ => none
  else none

/-- What is measured of a line. A file that is not claimed, a frame without a
source, a line that is not measurable and a failure come to nothing. -/
def measuredStep (frame : Frame) (world : σ) : Option MeasuredStep :=
  match c.shouldTrace frame.filename world with
  | (.ok (some disposition), _, world) =>
    match (measure c.host disposition frame world).1 with
    | .ok step => step
    | .error _ => none
  | _ => none

/-- What an event comes to. -/
def signal (event : Event) (world : σ) : Signal :=
  match event with
  | .call frame => .enter (c.givenLabel frame world)
  | .line frame => .line (c.measuredStep frame world)
  | .ret _ => .leave

/-- What the events of a run come to, in order. -/
def signals (c : Collector σ) : List Event → σ → List Signal
  | [], _ => []
  | event :: rest, world =>
    c.signal event world :: (c.step event world).2.1.signals rest (c.step event world).2.2

/-- A step is measured exactly when the file has a disposition, which has a source
for the frame and a range other than the unmeasured one. -/
theorem measuredStep_eq_some_iff {frame : Frame} {world : σ} {step : MeasuredStep} :
    c.measuredStep frame world = some step ↔
      ∃ disposition asked world₁ source world₂ range world₃,
        c.shouldTrace frame.filename world = (.ok (some disposition), asked, world₁) ∧
        disposition.sourceFor c.host frame world₁ = (.ok (some source), world₂) ∧
        disposition.lineRange frame world₂ = (.ok range, world₃) ∧
        range ≠ .unmeasured ∧ step = ⟨disposition.plugin, source, range⟩ := by
  rw [measuredStep]
  constructor
  · intro h
    rcases hasked : c.shouldTrace frame.filename world with ⟨_ | _ | disposition, asked, world₁⟩ <;>
      simp only [hasked, reduceCtorEq] at h
    simp only [measure] at h
    rcases hsource : disposition.sourceFor c.host frame world₁ with ⟨_ | _ | source, world₂⟩ <;>
      simp only [hsource, reduceCtorEq] at h
    rcases hrange : disposition.lineRange frame world₂ with ⟨_ | range, world₃⟩ <;>
      simp only [hrange, reduceCtorEq] at h
    by_cases hmeasured : range.isUnmeasured = true
    · simp [hmeasured] at h
    · rw [if_neg hmeasured] at h
      refine ⟨disposition, asked, world₁, source, world₂, range, world₃, rfl, hsource, hrange,
        ?_, (Option.some.inj h).symm⟩
      simpa [LineRange.isUnmeasured] using hmeasured
  · intro h
    obtain ⟨disposition, asked, world₁, source, world₂, range, world₃, hasked, hsource, hrange,
      hmeasured, rfl⟩ := h
    have hne : ¬ range.isUnmeasured = true := by simpa [LineRange.isUnmeasured] using hmeasured
    simp only [hasked, measure, hsource, hrange, if_neg hne]

theorem isMeasured_signal (event : Event) (world : σ) : (c.signal event world).IsMeasured := by
  cases event with
  | call frame => trivial
  | ret frame => trivial
  | line frame =>
    cases hstep : c.measuredStep frame world with
    | none => simp [signal, hstep, Signal.IsMeasured]
    | some step =>
      obtain ⟨_, _, _, _, _, _, _, _, _, _, hrange, rfl⟩ := (c.measuredStep_eq_some_iff).1 hstep
      simpa [signal, hstep, Signal.IsMeasured] using hrange

/-! ## Steps and runs -/

/-- The start of a frame opens an activation and leaves the rest of the collector
alone. -/
theorem call_eq (frame : Frame) (world : σ) :
    (c.call frame world).2.1 = c.mapRecorder (·.take (.enter (c.givenLabel frame world))) := by
  rw [call, givenLabel]
  have hcontext : (c.mapRecorder .enter).recorder.context = c.recorder.context := rfl
  simp only [hcontext, plugins_mapRecorder]
  by_cases hasked : (c.recorder.context.isNone && c.plugins.hasContextSwitchers) = true
  · have hnone : c.recorder.context.isNone = true := (Bool.and_eq_true_iff.1 hasked).1
    rw [if_pos hasked, if_pos hasked]
    rcases c.plugins.dynamicContext frame world with ⟨_ | _ | label, _⟩
    · rfl
    · rfl
    · simp [Recorder.take, mapRecorder, hnone]
  · rw [if_neg hasked, if_neg hasked]
    rfl

/-- A line moves the recorder, and the file that it lies in is known from then on
if the plug-ins did not fail. -/
theorem line_eq (frame : Frame) (world : σ) :
    (c.line frame world).2.1 =
      (c.shouldTrace frame.filename world).2.1.mapRecorder
        (·.take (.line (c.measuredStep frame world))) := by
  rw [line, measuredStep, shouldTrace_mapRecorder]
  rcases hasked : c.shouldTrace frame.filename world with ⟨_ | _ | disposition, asked, world₁⟩
  · rfl
  · rfl
  · have hhost : asked.host = c.host := by
      have hframe := (c.shouldTrace_frame frame.filename world).2.1
      rwa [hasked] at hframe
    simp only [host_mapRecorder, hhost]
    rcases measure c.host disposition frame world₁ with ⟨_ | _ | step, world₂⟩ <;> rfl

/-- The start of a frame comes out as the context switchers do, if they are asked. -/
theorem call_answer (frame : Frame) (world : σ) :
    ((c.call frame world).1, (c.call frame world).2.2) =
      if c.recorder.context.isNone && c.plugins.hasContextSwitchers then
        ((c.plugins.dynamicContext frame world).1.map fun _ => (),
          (c.plugins.dynamicContext frame world).2)
      else (.ok (), world) := by
  have hcontext : (c.mapRecorder .enter).recorder.context = c.recorder.context := rfl
  rw [call]
  simp only [hcontext, plugins_mapRecorder]
  split
  · rcases c.plugins.dynamicContext frame world with ⟨_ | _ | _, _⟩ <;> rfl
  · rfl

/-- A line comes out as what is asked of its file and its tracer. -/
theorem line_answer (frame : Frame) (world : σ) :
    ((c.line frame world).1, (c.line frame world).2.2) =
      match c.shouldTrace frame.filename world with
      | (.error failure, _, world) => (.error failure, world)
      | (.ok none, _, world) => (.ok (), world)
      | (.ok (some disposition), _, world) =>
        ((measure c.host disposition frame world).1.map fun _ => (),
          (measure c.host disposition frame world).2) := by
  rw [line, shouldTrace_mapRecorder]
  rcases hasked : c.shouldTrace frame.filename world with ⟨_ | _ | disposition, asked, world₁⟩
  · rfl
  · rfl
  · have hhost : asked.host = c.host := by
      have hframe := (c.shouldTrace_frame frame.filename world).2.1
      rwa [hasked] at hframe
    simp only [host_mapRecorder, hhost]
    rcases measure c.host disposition frame world₁ with ⟨_ | _ | step, world₂⟩ <;> rfl

/-- An event moves the recorder as its signal does, and changes neither the host
nor the plug-ins. -/
theorem step_frame (event : Event) (world : σ) :
    (c.step event world).2.1.recorder = c.recorder.take (c.signal event world) ∧
      (c.step event world).2.1.host = c.host ∧
      (c.step event world).2.1.plugins = c.plugins := by
  cases event with
  | ret frame => exact ⟨rfl, rfl, rfl⟩
  | call frame =>
    simp only [step, call_eq, signal, recorder_mapRecorder, host_mapRecorder, plugins_mapRecorder,
      and_self]
  | line frame =>
    obtain ⟨hrecorder, hhost, hplugins⟩ := c.shouldTrace_frame frame.filename world
    simp only [step, line_eq, signal, recorder_mapRecorder, host_mapRecorder,
      plugins_mapRecorder, hrecorder, hhost, hplugins, and_self]

/-- What an event finds out about a file that is not known. -/
def finding? (event : Event) (world : σ) (filename : Path) : Option (Option (Disposition σ)) :=
  match event with
  | .line frame =>
    if compare frame.filename filename = .eq then
      (c.plugins.fileTracer c.host frame.filename world).1.toOption
    else none
  | _ => none

theorem finding?_eq_some_iff {event : Event} {world : σ} {filename : Path}
    {outcome : Option (Disposition σ)} :
    c.finding? event world filename = some outcome ↔
      ∃ frame, event = .line frame ∧ compare frame.filename filename = .eq ∧
        (c.plugins.fileTracer c.host frame.filename world).1 = .ok outcome := by
  cases event with
  | call frame => simp [finding?]
  | ret frame => simp [finding?]
  | line frame =>
    rw [finding?]
    by_cases hsame : compare frame.filename filename = .eq
    · rcases hasked : (c.plugins.fileTracer c.host frame.filename world).1 with _ | _ <;>
        simp [hsame, hasked, Except.toOption]
    · simp [hsame]

/-- What is known of a file stays known. -/
theorem get?_known_step (event : Event) (world : σ) (filename : Path) :
    (c.step event world).2.1.known.get? filename =
      (c.known.get? filename).or (c.finding? event world filename) := by
  cases event with
  | ret frame => exact Option.or_none.symm
  | call frame =>
    rw [step, call_eq, known_mapRecorder]
    exact Option.or_none.symm
  | line frame =>
    rw [step, line_eq, known_mapRecorder, finding?]
    by_cases hsame : compare frame.filename filename = .eq
    · have hget := SortedMap.get?_congr hsame c.known
      rw [if_pos hsame]
      obtain ⟨_, hknown, hc⟩ | ⟨_, _, hknown, hasked, hc⟩ | ⟨_, _, hknown, hasked, hc⟩ :=
        c.shouldTrace_cases frame.filename world
      · rw [hc, ← hget, hknown, Option.some_or]
      · rw [hc, ← hget, hknown, hasked]
        rfl
      · rw [hc, ← hget, hknown, hasked, SortedMap.get?_insert,
          if_pos (Std.OrientedCmp.eq_symm hsame)]
        rfl
    · have hother : ¬ compare filename frame.filename = .eq := fun heq =>
        hsame (Std.OrientedCmp.eq_symm heq)
      rw [if_neg hsame, Option.or_none]
      obtain ⟨_, -, hc⟩ | ⟨_, _, -, -, hc⟩ | ⟨_, _, -, -, hc⟩ :=
        c.shouldTrace_cases frame.filename world
      · rw [hc]
      · rw [hc]
      · rw [hc, SortedMap.get?_insert, if_neg hother]

section OtherRecorder

variable {change : Recorder → Recorder}

/-- What is asked of a file does not depend on the recorder. -/
theorem measuredStep_mapRecorder (frame : Frame) (world : σ) :
    (c.mapRecorder change).measuredStep frame world = c.measuredStep frame world := by
  rw [measuredStep, measuredStep, shouldTrace_mapRecorder]
  rcases c.shouldTrace frame.filename world with ⟨_ | _ | disposition, asked, world₁⟩ <;> rfl

variable (hcontext : (change c.recorder).context.isNone = c.recorder.context.isNone)
include hcontext

/-- Of the recorder, an event depends on nothing but whether a context is active. -/
theorem signal_mapRecorder (event : Event) (world : σ) :
    (c.mapRecorder change).signal event world = c.signal event world := by
  cases event with
  | call frame =>
    rw [signal, signal, givenLabel, givenLabel, recorder_mapRecorder, plugins_mapRecorder, hcontext]
  | line frame => rw [signal, signal, measuredStep_mapRecorder]
  | ret frame => rfl

theorem step_mapRecorder (event : Event) (world : σ) :
    (c.mapRecorder change).step event world =
      ((c.step event world).1,
        (c.step event world).2.1.mapRecorder fun _ =>
          (change c.recorder).take (c.signal event world),
        (c.step event world).2.2) := by
  have hsignal := c.signal_mapRecorder hcontext event world
  cases event with
  | ret frame => rfl
  | call frame =>
    have hanswer : (((c.mapRecorder change).call frame world).1,
          ((c.mapRecorder change).call frame world).2.2) =
        ((c.call frame world).1, (c.call frame world).2.2) := by
      rw [call_answer, call_answer, recorder_mapRecorder, plugins_mapRecorder, hcontext]
    obtain ⟨hresult, hworld⟩ := Prod.mk.inj hanswer
    have hgiven : (c.mapRecorder change).givenLabel frame world = c.givenLabel frame world :=
      Signal.enter.inj hsignal
    have hmoved : ((c.mapRecorder change).call frame world).2.1 =
        (c.call frame world).2.1.mapRecorder fun _ =>
          (change c.recorder).take (c.signal (.call frame) world) := by
      rw [call_eq, call_eq, hgiven]
      rfl
    exact Prod.ext hresult (Prod.ext hmoved hworld)
  | line frame =>
    have hanswer : (((c.mapRecorder change).line frame world).1,
          ((c.mapRecorder change).line frame world).2.2) =
        ((c.line frame world).1, (c.line frame world).2.2) := by
      rw [line_answer, line_answer, shouldTrace_mapRecorder]
      rcases c.shouldTrace frame.filename world with ⟨_ | _ | _, _, _⟩ <;> rfl
    obtain ⟨hresult, hworld⟩ := Prod.mk.inj hanswer
    have hrecorder := (c.shouldTrace_frame frame.filename world).1
    have hmoved : ((c.mapRecorder change).line frame world).2.1 =
        (c.line frame world).2.1.mapRecorder fun _ =>
          (change c.recorder).take (c.signal (.line frame) world) := by
      rw [line_eq, line_eq, measuredStep_mapRecorder, shouldTrace_mapRecorder]
      simp only [mapRecorder, hrecorder, signal]
    exact Prod.ext hresult (Prod.ext hmoved hworld)

end OtherRecorder

/-- An event of a longer run is one of the shorter run, or the last one. -/
theorem occurs_append_iff {before events : List Event} {event last : Event} :
    before ++ [event] <+: events ++ [last] ↔
      before ++ [event] <+: events ∨ before = events ∧ event = last := by
  rw [List.prefix_concat_iff, or_comm]
  apply or_congr_right
  constructor
  · intro h
    obtain ⟨hbefore, hevent⟩ := List.append_inj' h rfl
    exact ⟨hbefore, List.head_eq_of_cons_eq hevent⟩
  · intro h
    obtain ⟨rfl, rfl⟩ := h
    rfl

@[simp]
theorem run_nil (world : σ) : c.run [] world = (c, world) := rfl

@[simp]
theorem run_cons (event : Event) (events : List Event) (world : σ) :
    c.run (event :: events) world =
      (c.step event world).2.1.run events (c.step event world).2.2 := rfl

theorem run_append (first second : List Event) (world : σ) :
    c.run (first ++ second) world =
      (c.run first world).1.run second (c.run first world).2 := by
  simp only [run, List.foldl_append]

theorem signals_append (first second : List Event) (world : σ) :
    c.signals (first ++ second) world =
      c.signals first world ++
        (c.run first world).1.signals second (c.run first world).2 := by
  induction first generalizing c world with
  | nil => rfl
  | cons event first ih =>
    simp only [List.cons_append, signals, run_cons, ih]

/-- A run moves the recorder as its signals do, and changes neither the host nor
the plug-ins. -/
theorem run_frame (events : List Event) (world : σ) :
    (c.run events world).1.recorder =
        (c.signals events world).foldl Recorder.take c.recorder ∧
      (c.run events world).1.host = c.host ∧ (c.run events world).1.plugins = c.plugins := by
  induction events generalizing c world with
  | nil => exact ⟨rfl, rfl, rfl⟩
  | cons event events ih =>
    obtain ⟨hrecorder, hhost, hplugins⟩ := c.step_frame event world
    rw [run_cons, signals, List.foldl_cons, ← hrecorder, ← hhost, ← hplugins]
    exact ih _ _

theorem isMeasured_signals (events : List Event) (world : σ) :
    ∀ s ∈ c.signals events world, s.IsMeasured := by
  induction events generalizing c world with
  | nil => simp [signals]
  | cons event events ih =>
    intro s hs
    rcases List.mem_cons.1 hs with rfl | hs
    · exact c.isMeasured_signal event world
    · exact ih _ _ s hs

end Collector

end Coverage
