/-
# Events that come to nothing

A line is skipped, or fails, when its file is not claimed, when its frame has no
source, when no measurable line ran, or when a plug-in fails on the way. The start of
a frame fails when a context switcher does. None of this leaves a trace: a run without
the lines that came to nothing, in which starts that failed are starts without a label,
records the same data, and has the same active context after each event.

The plug-ins are steady, and the run spells each executed file in one way. With lines
left out, a file is claimed at another of its lines, and the claim is the same then.
-/
import Mathlib.Data.List.Induction
import Coverage.Proofs.Recorder.Raised
import Coverage.Proofs.Registry.Steady

namespace Coverage

variable {σ : Type}

namespace Collector

/-- An event of a run that is told without what came to nothing. -/
inductive Kept where
  | event (event : Event)
  /-- The start of a frame that gets no label. No context switcher is asked. -/
  | unlabelled (frame : Frame)
deriving DecidableEq, Repr

/-- Take a kept event. -/
def retake (c : Collector σ) (kept : Kept) (world : σ) : Outcome σ Unit :=
  match kept with
  | .event event => c.step event world
  | .unlabelled _ => (.ok (), c.mapRecorder .enter, world)

/-- Take kept events in order, whether or not they fail. -/
def rerun (c : Collector σ) : List Kept → σ → Collector σ × σ
  | [], world => (c, world)
  | kept :: rest, world => (c.retake kept world).2.1.rerun rest (c.retake kept world).2.2

/-- What is kept of an event. A line that came to nothing is left out, and a start
that failed is one without a label. -/
def kept? (c : Collector σ) (event : Event) (world : σ) : Option Kept :=
  match event with
  | .call frame =>
    match (c.call frame world).1 with
    | .ok () => some (.event event)
    | .error _ => some (.unlabelled frame)
  | .line frame =>
    match c.measuredStep frame world with
    | some _ => some (.event event)
    | none => none
  | .ret _ => some (.event event)

/-- What is kept of the events of a run, in order. -/
def kept (c : Collector σ) : List Event → σ → List Kept
  | [], _ => []
  | event :: rest, world =>
    (c.kept? event world).toList ++
      (c.step event world).2.1.kept rest (c.step event world).2.2

theorem kept_append (c : Collector σ) (first second : List Event) (world : σ) :
    c.kept (first ++ second) world =
      c.kept first world ++ (c.run first world).1.kept second (c.run first world).2 := by
  induction first generalizing c world with
  | nil => rfl
  | cons event first ih => simp only [List.cons_append, kept, run_cons, ih, List.append_assoc]

theorem rerun_append (c : Collector σ) (first second : List Kept) (world : σ) :
    c.rerun (first ++ second) world =
      (c.rerun first world).1.rerun second (c.rerun first world).2 := by
  induction first generalizing c world with
  | nil => rfl
  | cons kept first ih => simp only [List.cons_append, rerun, ih]

/-! ## Steady answers -/

/-- The lines of a run spell each executed file in one way. -/
def SpellsOnce (events : List Event) : Prop :=
  ∀ frame other, .line frame ∈ events → .line other ∈ events →
    compare frame.filename other.filename = .eq → frame.filename = other.filename

/-- What is known of the files of a run is what the plug-ins answer. -/
def Recalls (c : Collector σ) (events : List Event) : Prop :=
  ∀ frame, .line frame ∈ events → ∀ outcome, c.known.get? frame.filename = some outcome →
    ∀ world, (c.plugins.fileTracer c.host frame.filename world).1 = .ok outcome

variable {c short : Collector σ} {events : List Event}

/-- A file is offered, or known, with the same outcome. -/
theorem Recalls.shouldTrace_eq (hc : c.Recalls events) (hsteady : c.plugins.Steady) {frame : Frame}
    (hframe : .line frame ∈ events) (world world' : σ) :
    (c.shouldTrace frame.filename world).1 =
      (c.plugins.fileTracer c.host frame.filename world').1 := by
  obtain ⟨outcome, hknown, hasked⟩ | ⟨_, _, -, hanswer, hasked⟩ | ⟨_, _, -, hanswer, hasked⟩ :=
    c.shouldTrace_cases frame.filename world
  · rw [hasked, hc frame hframe outcome hknown world']
  · rw [hasked, hsteady.fileTracer c.host frame.filename world' world, hanswer]
  · rw [hasked, hsteady.fileTracer c.host frame.filename world' world, hanswer]

/-- An event of the run adds nothing to what is known but what the plug-ins answer. -/
theorem Recalls.step (hc : c.Recalls events) (hsteady : c.plugins.Steady)
    (hspelling : SpellsOnce events) {event : Event} (hevent : event ∈ events) (world : σ) :
    (c.step event world).2.1.Recalls events := by
  obtain ⟨-, hhost, hplugins⟩ := c.step_frame event world
  intro other hother outcome hknown world'
  rw [hhost, hplugins]
  rw [get?_known_step, Option.or_eq_some_iff] at hknown
  rcases hknown with hknown | ⟨-, hfound⟩
  · exact hc other hother outcome hknown world'
  · obtain ⟨frame, rfl, hsame, hasked⟩ := c.finding?_eq_some_iff.1 hfound
    rw [← hspelling frame other hevent hother hsame, ← hasked]
    exact hsteady.fileTracer c.host frame.filename world' world

/-- What is measured of a line depends on the plug-ins alone. -/
theorem Recalls.measuredStep_eq (hc : c.Recalls events) (hshort : short.Recalls events)
    (hhost : short.host = c.host) (hplugins : short.plugins = c.plugins)
    (hsteady : c.plugins.Steady) {frame : Frame} (hframe : .line frame ∈ events)
    (world world' : σ) : short.measuredStep frame world' = c.measuredStep frame world := by
  have hanswer := hc.shouldTrace_eq hsteady hframe world world
  have hanswer' := hshort.shouldTrace_eq (hplugins ▸ hsteady) hframe world' world
  rw [hhost, hplugins, ← hanswer] at hanswer'
  rw [measuredStep, measuredStep, hhost]
  rcases hasked : c.shouldTrace frame.filename world with ⟨outcome, asked, after⟩
  rcases hasked' : short.shouldTrace frame.filename world' with ⟨outcome', asked', after'⟩
  rw [hasked] at hanswer
  rw [hasked, hasked'] at hanswer'
  obtain rfl : outcome = outcome' := hanswer'.symm
  rcases outcome with _ | _ | disposition
  · rfl
  · rfl
  · have htracer := hsteady.tracer_of_fileTracer hanswer.symm
    simp only [steady_measure htracer c.host frame after' after]

/-! ## The shorter run -/

/-- A collector, and one that was told only what is kept, at the same point of a run. -/
structure Shadows (short c : Collector σ) (events : List Event) : Prop where
  host : short.host = c.host
  plugins : short.plugins = c.plugins
  recorder : c.recorder.Ahead short.recorder
  grounded : short.recorder.Grounded
  recalls : c.Recalls events
  shortRecalls : short.Recalls events

namespace Shadows

/-- An event comes to the same for both. -/
theorem signal_eq (h : short.Shadows c events) (hsteady : c.plugins.Steady) {event : Event}
    (hevent : event ∈ events) (world world' : σ) :
    short.signal event world' = c.signal event world := by
  cases event with
  | ret frame => rfl
  | line frame =>
    rw [signal, signal,
      h.recalls.measuredStep_eq h.shortRecalls h.host h.plugins hsteady hevent world world']
  | call frame =>
    rw [signal, signal, givenLabel, givenLabel, h.plugins, h.recorder.isNone_context_eq,
      hsteady.dynamicContext frame world' world]

/-- An event that both take leaves them at the same point. -/
theorem step (h : short.Shadows c events) (hsteady : c.plugins.Steady)
    (hspelling : SpellsOnce events) {event : Event} (hevent : event ∈ events) (world world' : σ) :
    (short.step event world').2.1.Shadows (c.step event world).2.1 events := by
  obtain ⟨hrecorder, hhost, hplugins⟩ := c.step_frame event world
  obtain ⟨hrecorder', hhost', hplugins'⟩ := short.step_frame event world'
  refine ⟨?_, ?_, ?_, ?_, ?_, ?_⟩
  · rw [hhost, hhost', h.host]
  · rw [hplugins, hplugins', h.plugins]
  · rw [hrecorder, hrecorder', h.signal_eq hsteady hevent world world']
    exact h.recorder.take h.grounded _
  · rw [hrecorder']
    exact h.grounded.take _
  · exact h.recalls.step hsteady hspelling hevent world
  · exact h.shortRecalls.step (h.plugins ▸ hsteady) hspelling hevent world'

/-- A line that came to nothing can be left out. -/
theorem skip (h : short.Shadows c events) (hsteady : c.plugins.Steady)
    (hspelling : SpellsOnce events) {frame : Frame} (hframe : .line frame ∈ events) {world : σ}
    (hnothing : c.measuredStep frame world = none) :
    short.Shadows (c.step (.line frame) world).2.1 events := by
  obtain ⟨hrecorder, hhost, hplugins⟩ := c.step_frame (.line frame) world
  have hsignal : c.signal (.line frame) world = .line none := by rw [signal, hnothing]
  refine ⟨?_, ?_, ?_, h.grounded, ?_, h.shortRecalls⟩
  · rw [hhost, h.host]
  · rw [hplugins, h.plugins]
  · rw [hrecorder, hsignal]
    exact h.recorder.skip h.grounded
  · exact h.recalls.step hsteady hspelling hframe world

/-- A start that failed is one without a label. -/
theorem unlabelled (h : short.Shadows c events) (hsteady : c.plugins.Steady)
    (hspelling : SpellsOnce events) {frame : Frame} (hframe : .call frame ∈ events) {world : σ}
    {failure : Failure} (hfailed : (c.call frame world).1 = .error failure) :
    (short.mapRecorder .enter).Shadows (c.step (.call frame) world).2.1 events := by
  obtain ⟨hrecorder, hhost, hplugins⟩ := c.step_frame (.call frame) world
  have hgiven : c.givenLabel frame world = none := by
    have hanswer := congrArg Prod.fst (c.call_answer frame world)
    rw [givenLabel]
    split at hanswer
    · next hasked =>
      rw [if_pos hasked]
      rcases hcontext : c.plugins.dynamicContext frame world with ⟨_ | _, _⟩
      · rfl
      · rw [hfailed, hcontext] at hanswer
        cases hanswer
    · next hasked => rw [if_neg hasked]
  have hsignal : c.signal (.call frame) world = .enter none := by rw [signal, hgiven]
  refine ⟨?_, ?_, ?_, ?_, ?_, ?_⟩
  · rw [hhost, host_mapRecorder, h.host]
  · rw [hplugins, plugins_mapRecorder, h.plugins]
  · rw [hrecorder, hsignal, recorder_mapRecorder]
    exact h.recorder.take h.grounded (.enter none)
  · exact h.grounded.enter
  · exact h.recalls.step hsteady hspelling hframe world
  · exact h.shortRecalls

/-- Whatever is kept of an event, it leaves both at the same point. -/
theorem rerun (h : short.Shadows c events) (hsteady : c.plugins.Steady)
    (hspelling : SpellsOnce events) {event : Event} (hevent : event ∈ events) (world world' : σ) :
    (short.rerun (c.kept? event world).toList world').1.Shadows (c.step event world).2.1
      events := by
  cases event with
  | ret frame => exact h.step hsteady hspelling hevent world world'
  | line frame =>
    rw [kept?]
    cases hmeasured : c.measuredStep frame world with
    | none => exact h.skip hsteady hspelling hevent hmeasured
    | some step => exact h.step hsteady hspelling hevent world world'
  | call frame =>
    rw [kept?]
    rcases hanswer : (c.call frame world).1 with failure | _
    · exact h.unlabelled hsteady hspelling hevent hanswer
    · exact h.step hsteady hspelling hevent world world'

end Shadows

/-- At every moment of a run, the shorter one is at the same point. -/
theorem shadows_run (host : Host) {plugins : Registry σ} (branch : Bool)
    (hsteady : plugins.Steady) (hspelling : SpellsOnce events) {before : List Event}
    (hbefore : before <+: events) (world : σ) :
    ((start host plugins branch).rerun ((start host plugins branch).kept before world)
      world).1.Shadows ((start host plugins branch).run before world).1 events := by
  induction before using List.reverseRecOn with
  | nil =>
    refine ⟨rfl, rfl, .inl rfl, Recorder.grounded_start branch, ?_, ?_⟩
    all_goals
      intro frame _ outcome hknown
      cases hknown
  | append_singleton before event ih =>
    have hearlier : before <+: events := (List.prefix_append _ _).trans hbefore
    have hevent : event ∈ events := hbefore.subset (List.mem_append_right _ List.mem_cons_self)
    have hplugins : ((start host plugins branch).run before world).1.plugins = plugins :=
      (run_frame ..).2.2
    rw [kept_append, rerun_append, run_append, run_cons, run_nil, kept, kept, List.append_nil]
    exact (ih hearlier).rerun (hplugins.symm ▸ hsteady) hspelling hevent _ _

/-- Events that come to nothing leave no trace. A run in which lines that failed or
were skipped are left out, and starts that failed are starts without a label, has the
same active context after each of its events as the whole run, and ends with the same
data. -/
theorem silent_events_leave_no_trace (host : Host) (plugins : Registry σ) (branch : Bool)
    (events : List Event) (world : σ) (hsteady : plugins.Steady) (hspelling : SpellsOnce events) :
    let first := start host plugins branch
    (first.run events world).1.data = (first.rerun (first.kept events world) world).1.data ∧
    ∀ before, before <+: events → first.kept before world <+: first.kept events world ∧
      (first.run before world).1.context? =
        (first.rerun (first.kept before world) world).1.context? := by
  intro first
  refine ⟨?_, ?_⟩
  · exact (shadows_run host branch hsteady hspelling List.prefix_rfl world).recorder.data_eq
  · intro before hbefore
    have hshadows := shadows_run host branch hsteady hspelling hbefore world
    refine ⟨?_, hshadows.recorder.activeLabel?_eq⟩
    obtain ⟨after, rfl⟩ := hbefore
    rw [kept_append]
    exact List.prefix_append _ _

/-! ## A run with events that come to nothing -/

namespace Sketch

/-- The tracer of a drawing. Its line 99 is not measurable. -/
def tracer : Tracer Nat where
  sourceFilename calls := (⟨"/s/drawing"⟩, calls + 1)
  lineRange frame calls :=
    (.ok (if frame.line = 99 then .unmeasured else .single frame.line), calls + 1)

/-- A plug-in that traces one file, names a context after a function, fails where the
function has no name, and counts its calls. -/
def drawing : Plugin Nat where
  identity := "drawing"
  typeName := "Drawing"
  fileTracer filename calls :=
    (.ok (if filename.text = "/b/drawing" then some tracer else none), calls + 1)
  dynamicContext frame calls :=
    (if frame.function = "" then .error (.reported "no name") else .ok (some frame.function),
      calls + 1)

/-- The plug-in as a file tracer and as a context switcher. -/
def plugins : Registry Nat := ⟨[⟨"art.Drawing", drawing⟩], [0], [], [0]⟩

/-- A frame of the traced file. -/
def frame (line : Int) (function : String) : Frame := ⟨⟨"/b/drawing"⟩, line, function⟩

/-- A line of a file that nobody claims comes before the first start, a start fails, and
a line is not measurable. -/
def sitting : List Event :=
  [.line ⟨⟨"/b/other"⟩, 1, "main"⟩, .call (frame 1 ""), .call (frame 1 "draw"),
    .line (frame 99 "draw"), .line (frame 2 "draw"), .ret (frame 2 "draw"), .ret (frame 2 "")]

/-- The events that are kept. -/
def keptEvents : List Kept :=
  [.unlabelled (frame 1 ""), .event (.call (frame 1 "draw")), .event (.line (frame 2 "draw")),
    .event (.ret (frame 2 "draw")), .event (.ret (frame 2 ""))]

/-- The plug-ins answer alike whenever they are asked. -/
theorem steady_plugins : plugins.Steady := by
  intro entry hentry
  obtain rfl := List.mem_singleton.1 hentry
  refine ⟨fun _ _ _ => rfl, ?_, fun _ _ _ => rfl⟩
  intro filename calls given hgiven
  have htracer : given = tracer := by
    simp only [drawing] at hgiven
    split at hgiven
    · cases hgiven
      rfl
    · cases hgiven
  rw [htracer]
  exact ⟨fun _ _ => rfl, fun _ _ => rfl, fun _ _ _ _ => rfl, fun _ _ _ => rfl⟩

/-- No file of the sitting is spelled in two ways. -/
theorem spellsOnce_sitting : SpellsOnce sitting := by
  intro first second hfirst hsecond hsame
  simp only [sitting, List.mem_cons, Event.line.injEq, reduceCtorEq, List.not_mem_nil, false_or,
    or_false] at hfirst hsecond
  have hother : compare (⟨"/b/other"⟩ : Path) ⟨"/b/drawing"⟩ ≠ .eq := by decide +kernel
  have hother' : compare (⟨"/b/drawing"⟩ : Path) ⟨"/b/other"⟩ ≠ .eq := by decide +kernel
  rcases hfirst with rfl | rfl | rfl <;> rcases hsecond with rfl | rfl | rfl
  all_goals first | rfl | exact absurd hsame hother | exact absurd hsame hother'

/-- The drawing is recorded alike without the line that opens the run, the start that
fails and the line that is not measurable. -/
theorem drawing_leaves_no_trace :
    plugins.Steady ∧ SpellsOnce sitting ∧
      (start ⟨∅, []⟩ plugins true).kept sitting 0 = keptEvents ∧
      ((start ⟨∅, []⟩ plugins true).run sitting 0).1.data =
        ((start ⟨∅, []⟩ plugins true).rerun keptEvents 0).1.data ∧
      ((start ⟨∅, []⟩ plugins true).run sitting 0).1.data.contexts ⟨"/s/drawing"⟩ = ["draw"] := by
  have hkept : (start ⟨∅, []⟩ plugins true).kept sitting 0 = keptEvents := by decide +kernel
  obtain ⟨hdata, -⟩ := silent_events_leave_no_trace ⟨∅, []⟩ plugins true sitting 0 steady_plugins
    spellsOnce_sitting
  refine ⟨steady_plugins, spellsOnce_sitting, hkept, hkept ▸ hdata, ?_⟩
  decide +kernel

end Sketch

end Collector

end Coverage
