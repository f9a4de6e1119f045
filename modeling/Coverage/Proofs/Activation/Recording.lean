/-
# Recorders follow histories

A recorder keeps one position per open activation and writes data as it goes. The
history of the same signals keeps every step and writes nothing. The main
statement says that they agree after every run: what the recorder wrote for a
file under a label is what the activations with that label covered and took in
that file, and the label under which a recorder writes is the label of the
innermost open activation.

The invariant is `Recorder.Follows`. It ties each position on the stack to the
last step of an open activation, and the depth at which a context ends to the
activation that started it.
-/
import Mathlib.Data.List.Induction
import Coverage.Proofs.Activation.Identity
import Coverage.Proofs.Recorder.Operations

namespace Coverage

open Recorder

/-- Where an activation is: at its last step. -/
def Activation.position? (a : Activation) : Option Position :=
  a.steps.getLast?.map MeasuredStep.position

theorem Activation.exists_mem_position? {a : Activation} {p : Position → Prop} :
    (∃ last ∈ a.position?, p last) ↔ ∃ last ∈ a.steps.getLast?, p last.position := by
  rw [position?]
  cases a.steps.getLast? <;> simp

namespace Recorder

/-! ## The arcs of a step -/

/-- The arcs that a step writes are those that join it to the step before. -/
theorem mem_arcsIn_recordArcs (r : Recorder) (step : MeasuredStep) {prior? : Option MeasuredStep}
    {source : Path} {label : String} {arc : Arc} :
    arc ∈ (r.recordArcs step (prior?.map MeasuredStep.position)).data.arcsIn source label ↔
      arc ∈ r.data.arcsIn source label ∨
        r.branch = true ∧ r.label = label ∧ Activation.Joins prior? step source arc := by
  cases prior? with
  | none =>
    rw [Option.map_none, recordArcs, mem_arcsIn_addArc, Activation.joins_none_iff]
    rfl
  | some prior =>
    rw [Option.map_some, recordArcs, MeasuredStep.position]
    by_cases hsame : sameSource prior.source step.source = true
    · rw [if_pos hsame, mem_arcsIn_addArc, Activation.joins_iff_of_same hsame]
    · rw [if_neg hsame, exitFrom, mem_arcsIn_addArc, mem_arcsIn_addArc, branch_addArc,
        label_addArc, Activation.joins_iff_of_other hsame]
      simp only [boundary, or_assoc, and_or_left]

/-- A measured step writes the arcs that join it to the step before, under the
label in force. -/
theorem mem_arcsIn_execute {r : Recorder} {step : MeasuredStep} {prior? : Option MeasuredStep}
    {outer : List (Option Position)} (hstack : r.stack = prior?.map MeasuredStep.position :: outer)
    {source : Path} {label : String} {arc : Arc} :
    arc ∈ (r.execute step).data.arcsIn source label ↔
      arc ∈ r.data.arcsIn source label ∨
        r.branch = true ∧ r.label = label ∧ Activation.Joins prior? step source arc := by
  rw [data_execute hstack, mem_arcsIn_recordArcs, CoverageData.arcsIn_addLines]
  rfl

/-! ## How a recorder follows a history -/

/-- A recorder is where a history says, and wrote what the history says. -/
structure Follows (r : Recorder) (h : History) : Prop where
  nested : History.Nested h.opened
  /-- A position for every open activation: that of its last step. -/
  stack : r.stack = h.opened.map Activation.position?
  /-- The context ends at the depth of the activation that started it. -/
  context : r.context = History.started h.opened
  lines : ∀ source label line, line ∈ r.data.linesIn source label ↔
    ∃ a ∈ h.activations, a.contextLabel = label ∧ a.Covers source line
  arcs : ∀ source label arc, arc ∈ r.data.arcsIn source label ↔
    r.branch = true ∧ ∃ a ∈ h.activations, a.contextLabel = label ∧ a.Takes source arc

theorem follows_start (branch : Bool) : (Recorder.start branch).Follows ∅ where
  nested := trivial
  stack := rfl
  context := rfl
  lines _ _ _ := by simp [Recorder.start]
  arcs _ _ _ := by simp [Recorder.start]

namespace Follows

variable {r : Recorder} {h : History}

/-- The label under which the recorder writes is the one in force. -/
theorem activeLabel? (hr : r.Follows h) : r.activeLabel? = h.inForce := by
  rw [Recorder.activeLabel?, hr.context, History.inForce_eq_started hr.nested]

theorem label_of_cons (hr : r.Follows h) {a : Activation} {outer : List Activation}
    (hopened : h.opened = a :: outer) : r.label = a.contextLabel := by
  rw [Recorder.label, hr.activeLabel?, History.inForce, hopened]
  rfl

/-- Opening an activation writes nothing, and an activation without steps has
nothing to show. -/
theorem views_enter (hr : r.Follows h) (given : Option String) :
    (∀ source label line, line ∈ r.data.linesIn source label ↔
      ∃ a ∈ (h.enter given).activations, a.contextLabel = label ∧ a.Covers source line) ∧
    ∀ source label arc, arc ∈ r.data.arcsIn source label ↔
      r.branch = true ∧
        ∃ a ∈ (h.enter given).activations, a.contextLabel = label ∧ a.Takes source arc := by
  constructor
  · intro source label line
    rw [hr.lines, History.exists_mem_activations_enter]
    intro a hnil hshown
    exact Activation.not_covers_of_nil hnil hshown.2
  · intro source label arc
    rw [hr.arcs, History.exists_mem_activations_enter]
    intro a hnil hshown
    exact Activation.not_takes_of_nil hnil hshown.2

theorem enter (hr : r.Follows h) (given : Option String) :
    (r.take (.enter given)).Follows (h.enter given) := by
  obtain ⟨hlines, harcs⟩ := hr.views_enter given
  have hstack : r.enter.stack = (h.enter given).opened.map Activation.position? := by
    rw [Recorder.enter, hr.stack]
    rfl
  have hforce : h.inForce.isNone = r.context.isNone := by
    rw [← hr.activeLabel?, Recorder.activeLabel?, Option.isNone_map]
  cases given with
  | none =>
    refine ⟨History.nested_enter hr.nested none, hstack, ?_, hlines, harcs⟩
    have hgiven : (if h.inForce.isNone then (none : Option String) else none) = none := by
      split <;> rfl
    rw [History.enter, History.started_cons_of_none _ hgiven]
    exact hr.context
  | some label =>
    rw [take]
    split
    · next hnone =>
      refine ⟨History.nested_enter hr.nested (some label), hstack, ?_, hlines, harcs⟩
      have hgiven : (if h.inForce.isNone then some label else none) = some label := by
        rw [hforce, if_pos hnone]
      rw [History.enter, History.started_cons_of_some _ hgiven, startContext]
      simp only [Recorder.enter, List.length_cons, hr.stack, List.length_map]
    · next hsome =>
      refine ⟨History.nested_enter hr.nested (some label), hstack, ?_, hlines, harcs⟩
      have hgiven : (if h.inForce.isNone then some label else none) = none := by
        rw [hforce, if_neg hsome]
      rw [History.enter, History.started_cons_of_none _ hgiven]
      exact hr.context

theorem ensureEntered (hr : r.Follows h) : r.ensureEntered.Follows h.ensureEntered := by
  have hempty : r.stack.isEmpty = h.opened.isEmpty := by rw [hr.stack, List.isEmpty_map]
  rw [Recorder.ensureEntered, History.ensureEntered, hempty]
  split
  · exact hr.enter none
  · exact hr

/-- A measured step writes what it adds to the innermost activation. -/
theorem execute (hr : r.Follows h) {step : MeasuredStep} (hmeasured : step.range ≠ .unmeasured)
    {a : Activation} {outer : List Activation} (hopened : h.opened = a :: outer) :
    (r.execute step).Follows (h.measure step) := by
  have hmeasure : h.measure step = { h with opened := a.push step :: outer } := by
    rw [History.measure, hopened]
  have hopen : a.returned = false := (hopened ▸ hr.nested : History.Nested (a :: outer)).1
  have hlabel : r.label = a.contextLabel := hr.label_of_cons hopened
  have hstack : r.stack = a.position? :: outer.map Activation.position? := by
    rw [hr.stack, hopened, List.map_cons]
  obtain ⟨hbranch, hcontext, hmoved⟩ := @frame_execute step r _ _ hstack
  rw [hmeasure]
  constructor
  case nested => exact hmeasure ▸ History.nested_measure hr.nested step
  case stack =>
    rw [hmoved, List.map_cons, Activation.position?, Activation.push, List.getLast?_concat]
    rfl
  case context =>
    rw [hcontext, hr.context, hopened]
    rfl
  case lines =>
    intro source label line
    rw [mem_linesIn_execute hstack, LineRange.mem_lines hmeasured, hr.lines,
      History.exists_mem_activations_of_cons hopened, History.exists_mem_activations_of_cons rfl,
      Activation.covers_push, Activation.contextLabel_push, hlabel]
    grind
  case arcs =>
    intro source label arc
    rw [mem_arcsIn_execute hstack, hbranch, hr.arcs,
      History.exists_mem_activations_of_cons hopened, History.exists_mem_activations_of_cons rfl,
      Activation.takes_push hopen, Activation.contextLabel_push, hlabel]
    grind

/-- The end of an activation writes what closing it adds. -/
theorem leave (hr : r.Follows h) : r.leave.Follows h.leave := by
  cases hopened : h.opened with
  | nil =>
    have hstack : r.stack = [] := by rw [hr.stack, hopened, List.map_nil]
    have hcontext : r.context = none := by rw [hr.context, hopened]; rfl
    have hleave : r.leave = r := by
      rw [Recorder.leave, hstack, hcontext]
      rfl
    have hhistory : h.leave = h := by rw [History.leave, hopened]
    rw [hleave, hhistory]
    exact hr
  | cons a outer =>
    have hleave : h.leave = ⟨outer, a.close :: h.closed⟩ := by rw [History.leave, hopened]
    have hopen : a.returned = false := (hopened ▸ hr.nested : History.Nested (a :: outer)).1
    have hlabel : r.label = a.contextLabel := hr.label_of_cons hopened
    have hstack : r.stack = a.position? :: outer.map Activation.position? := by
      rw [hr.stack, hopened, List.map_cons]
    obtain ⟨hbranch, hmoved, hcontext⟩ := frame_leave hstack
    constructor
    case nested => exact History.nested_leave hr.nested
    case stack => rw [hmoved, hleave]
    case context =>
      rw [hcontext, hleave, List.length_map, hr.context, hopened]
      exact History.started_leave (hopened ▸ hr.nested : History.Nested (a :: outer)).2.2.1
    case lines =>
      intro source label line
      rw [linesIn_leave hstack, hr.lines, History.exists_mem_activations_of_cons hopened,
        History.exists_mem_activations_leave hopened]
      rfl
    case arcs =>
      intro source label arc
      have hlast : (∃ last ∈ a.position?, sameSource last.source source ∧
            arc = ⟨last.lastLine, boundary⟩) ↔
          ∃ last ∈ a.steps.getLast?, sameSource last.source source ∧
            arc = ⟨last.range.last, -1⟩ := Activation.exists_mem_position?
      have hclose : a.close.contextLabel = a.contextLabel := rfl
      rw [mem_arcsIn_leave hstack, hbranch, hr.arcs,
        History.exists_mem_activations_of_cons hopened,
        History.exists_mem_activations_leave hopened, Activation.takes_close hopen, hlabel, hlast,
        hclose]
      grind

/-- A recorder that takes a signal goes on following the history that takes it. -/
theorem take (hr : r.Follows h) (signal : Signal) (hmeasured : signal.IsMeasured) :
    (r.take signal).Follows (h.take signal) := by
  cases signal with
  | enter given => exact hr.enter given
  | leave => exact hr.leave
  | line step =>
    cases step with
    | none => exact hr.ensureEntered
    | some step =>
      obtain ⟨a, outer, hopened⟩ := h.exists_opened_ensureEntered
      exact hr.ensureEntered.execute hmeasured hopened

end Follows

/-- Recorders follow histories over whole runs. -/
theorem follows_ofSignals (branch : Bool) (signals : List Signal)
    (hmeasured : ∀ signal ∈ signals, signal.IsMeasured) :
    (signals.foldl take (start branch)).Follows (.ofSignals signals) := by
  suffices hgeneral : ∀ (r : Recorder) (h : History), r.Follows h →
      (signals.foldl take r).Follows (signals.foldl History.take h) from
    hgeneral _ _ (follows_start branch)
  induction signals with
  | nil => exact fun _ _ hr => hr
  | cons signal signals ih =>
    intro r h hr
    exact ih (fun s hs => hmeasured s (List.mem_cons_of_mem _ hs)) _ _
      (hr.take signal (hmeasured signal List.mem_cons_self))

/-- Whether arcs are recorded is settled at the start. -/
theorem branch_foldl_take (r : Recorder) (signals : List Signal) :
    (signals.foldl take r).branch = r.branch := by
  induction signals generalizing r with
  | nil => rfl
  | cons signal signals ih => rw [List.foldl_cons, ih, branch_take]

end Recorder

/-! ## From activations to lines -/

namespace History

/-- A signal adds the step that it carries, under the label in force. -/
theorem exists_step_take {r : Recorder} {h : History} (hr : r.Follows h) (signal : Signal)
    (p : String → MeasuredStep → Prop) :
    (∃ a ∈ (h.take signal).activations, ∃ step ∈ a.steps, p a.contextLabel step) ↔
      (∃ a ∈ h.activations, ∃ step ∈ a.steps, p a.contextLabel step) ∨
        ∃ step, signal = .line (some step) ∧ p r.label step := by
  have hfresh : ∀ a : Activation, a.steps = [] → ¬ ∃ step ∈ a.steps, p a.contextLabel step := by
    intro a hnil hstep
    obtain ⟨step, hmem, -⟩ := hstep
    rw [hnil] at hmem
    cases hmem
  have hentered : (∃ a ∈ h.ensureEntered.activations, ∃ step ∈ a.steps, p a.contextLabel step) ↔
      ∃ a ∈ h.activations, ∃ step ∈ a.steps, p a.contextLabel step := by
    rw [ensureEntered]
    split
    · exact exists_mem_activations_enter none hfresh
    · rfl
  cases signal with
  | enter given =>
    rw [take, exists_mem_activations_enter given hfresh]
    simp
  | leave =>
    cases hopened : h.opened with
    | nil => simp [take, leave, hopened]
    | cons a outer =>
      rw [take, exists_mem_activations_leave hopened, exists_mem_activations_of_cons hopened]
      simp [Activation.close, Activation.contextLabel]
  | line step =>
    cases step with
    | none =>
      rw [take, hentered]
      simp
    | some step =>
      obtain ⟨a, outer, hopened⟩ := h.exists_opened_ensureEntered
      obtain ⟨_, _, -, -, hlabel⟩ := r.exists_stack_ensureEntered
      have hmeasure : h.ensureEntered.measure step =
          { h.ensureEntered with opened := a.push step :: outer } := by rw [measure, hopened]
      rw [take, hmeasure, ← hentered, exists_mem_activations_of_cons rfl,
        exists_mem_activations_of_cons hopened, Activation.contextLabel_push, ← hlabel,
        hr.ensureEntered.label_of_cons hopened]
      simp only [Activation.push, List.mem_append, List.mem_singleton, or_and_right, exists_or,
        exists_eq_left, Signal.line.injEq, Option.some.injEq, exists_eq_left']
      grind

end History

namespace Collector

/-! ## Runs -/

variable {σ : Type}

/-- The history of a run that starts with the collector. -/
def history (c : Collector σ) (events : List Event) (world : σ) : History :=
  .ofSignals (c.signals events world)

theorem history_append (c : Collector σ) (first second : List Event) (world : σ) :
    c.history (first ++ second) world =
      ((c.run first world).1.signals second (c.run first world).2).foldl History.take
        (c.history first world) := by
  rw [history, signals_append, History.ofSignals_append, history]

theorem extends_history (c : Collector σ) (first second : List Event) (world : σ) :
    (c.history first world).Extends (c.history (first ++ second) world) := by
  rw [history_append]
  exact History.extends_foldl_take _ _

/-- A line of a run was measured, with this step and under this label. -/
def Measures (first : Collector σ) (events : List Event) (world : σ) (step : MeasuredStep)
    (label : String) : Prop :=
  ∃ before frame, before ++ [.line frame] <+: events ∧
    (first.run before world).1.measuredStep frame (first.run before world).2 = some step ∧
    (first.run before world).1.recorder.label = label

/-- An event comes to a step when it is a measured line. -/
theorem signal_eq_step_iff {c : Collector σ} {event : Event} {world : σ} {step : MeasuredStep} :
    c.signal event world = .line (some step) ↔
      ∃ frame, event = .line frame ∧ c.measuredStep frame world = some step := by
  cases event <;> simp [signal]

theorem not_measures_nil {first : Collector σ} {world : σ} {step : MeasuredStep} {label : String} :
    ¬ first.Measures [] world step label := by
  intro h
  obtain ⟨before, frame, hprefix, -⟩ := h
  simp at hprefix

/-- One more event adds its own measured line. -/
theorem measures_append_iff {first : Collector σ} {events : List Event} {event : Event} {world : σ}
    {step : MeasuredStep} {label : String} :
    first.Measures (events ++ [event]) world step label ↔
      first.Measures events world step label ∨
        (first.run events world).1.signal event (first.run events world).2 = .line (some step) ∧
          (first.run events world).1.recorder.label = label := by
  constructor
  · intro h
    obtain ⟨before, frame, hprefix, hmeasured, hlabel⟩ := h
    rcases occurs_append_iff.1 hprefix with hearlier | ⟨rfl, hframe⟩
    · exact .inl ⟨before, frame, hearlier, hmeasured, hlabel⟩
    · exact .inr ⟨signal_eq_step_iff.2 ⟨frame, hframe.symm, hmeasured⟩, hlabel⟩
  · intro h
    rcases h with ⟨before, frame, hprefix, hmeasured⟩ | ⟨hsignal, hlabel⟩
    · exact ⟨before, frame, hprefix.trans (List.prefix_append _ _), hmeasured⟩
    · obtain ⟨frame, rfl, hmeasured⟩ := signal_eq_step_iff.1 hsignal
      exact ⟨events, frame, List.prefix_rfl, hmeasured, hlabel⟩

section Start

variable (host : Host) (plugins : Registry σ) (branch : Bool) (events : List Event) (world : σ)

/-- The recorder of a run follows the history of the run. -/
theorem follows_run :
    ((start host plugins branch).run events world).1.recorder.Follows
      ((start host plugins branch).history events world) := by
  rw [(run_frame ..).1]
  exact follows_ofSignals branch _ (isMeasured_signals _ _ _)

theorem branch_run : ((start host plugins branch).run events world).1.recorder.branch = branch := by
  rw [(run_frame ..).1]
  exact branch_foldl_take _ _

/-- The steps of the activations of a run are its measured lines, each under the label
that was in force. -/
theorem exists_step_iff (p : String → MeasuredStep → Prop) :
    (∃ a ∈ ((start host plugins branch).history events world).activations,
        ∃ step ∈ a.steps, p a.contextLabel step) ↔
      ∃ step label, (start host plugins branch).Measures events world step label ∧
        p label step := by
  induction events using List.reverseRecOn with
  | nil =>
    constructor
    · intro h
      obtain ⟨a, ha, -⟩ := h
      cases ha
    · intro h
      obtain ⟨_, _, hmeasures, -⟩ := h
      exact absurd hmeasures not_measures_nil
  | append_singleton events event ih =>
    rw [history_append]
    apply (History.exists_step_take (follows_run host plugins branch events world) _ p).trans
    simp only [ih, measures_append_iff, or_and_right, exists_or]
    apply or_congr_right
    constructor
    · intro h
      obtain ⟨step, hsignal, hp⟩ := h
      exact ⟨step, _, ⟨hsignal, rfl⟩, hp⟩
    · intro h
      obtain ⟨step, _, ⟨hsignal, rfl⟩, hp⟩ := h
      exact ⟨step, hsignal, hp⟩

/-- The steps under a label are the lines that were measured under it. -/
theorem exists_step_of_label_iff {label : String} (p : MeasuredStep → Prop) :
    (∃ a ∈ ((start host plugins branch).history events world).activations,
        a.contextLabel = label ∧ ∃ step ∈ a.steps, p step) ↔
      ∃ step, (start host plugins branch).Measures events world step label ∧ p step := by
  have hsteps := exists_step_iff host plugins branch events world
    fun context step => context = label ∧ p step
  constructor
  · intro h
    obtain ⟨a, ha, hlabel, step, hstep, hp⟩ := h
    obtain ⟨step, _, hmeasures, rfl, hp⟩ := hsteps.1 ⟨a, ha, step, hstep, hlabel, hp⟩
    exact ⟨step, hmeasures, hp⟩
  · intro h
    obtain ⟨step, hmeasures, hp⟩ := h
    obtain ⟨a, ha, step, hstep, hlabel, hp⟩ := hsteps.2 ⟨step, label, hmeasures, rfl, hp⟩
    exact ⟨a, ha, hlabel, step, hstep, hp⟩

/-- A step of an activation under a label is a line that was measured under it. -/
theorem mem_steps_iff {label : String} {step : MeasuredStep} :
    (∃ a ∈ ((start host plugins branch).history events world).activations,
        a.contextLabel = label ∧ step ∈ a.steps) ↔
      (start host plugins branch).Measures events world step label := by
  have hsteps : (∃ a ∈ ((start host plugins branch).history events world).activations,
      a.contextLabel = label ∧ ∃ other ∈ a.steps, other = step) ↔ _ :=
    exists_step_of_label_iff host plugins branch events world (· = step)
  simpa only [exists_eq_right] using hsteps

end Start

/-- A run records exactly what its activations did: the lines that they covered,
and, when branches are measured, the arcs that they took, each under the label of
the activation. That label is the context that was active at every moment at
which the activation was the innermost one. The steps of the activations are the
lines for whose file there was a disposition, which had a source for the frame and
a range other than the unmeasured one. -/
theorem run_records_activations (host : Host) (plugins : Registry σ) (branch : Bool)
    (events : List Event) (world : σ) :
    let c := start host plugins branch
    let data := (c.run events world).1.data
    let h := c.history events world
    (∀ source label line, line ∈ data.linesIn source label ↔
      ∃ a ∈ h.activations, a.contextLabel = label ∧ a.Covers source line) ∧
    (∀ source label arc, arc ∈ data.arcsIn source label ↔
      branch = true ∧ ∃ a ∈ h.activations, a.contextLabel = label ∧ a.Takes source arc) ∧
    (∀ before after, events = before ++ after →
      let moment := (c.run before world).1
      ((c.history before world).opened = [] → moment.context? = none) ∧
      ∀ innermost ∈ (c.history before world).opened.head?,
        ∃ a ∈ h.activations, a.number = innermost.number ∧ a.label = moment.context?) ∧
    ∀ label step, (∃ a ∈ h.activations, a.contextLabel = label ∧ step ∈ a.steps) ↔
      ∃ before frame, before ++ [.line frame] <+: events ∧
        let moment := (c.run before world).1
        (∃ disposition asked world₁ source world₂ range world₃,
          moment.shouldTrace frame.filename (c.run before world).2 =
            (.ok (some disposition), asked, world₁) ∧
          disposition.sourceFor moment.host frame world₁ = (.ok (some source), world₂) ∧
          disposition.lineRange frame world₂ = (.ok range, world₃) ∧
          range ≠ .unmeasured ∧ step = ⟨disposition.plugin, source, range⟩) ∧
        moment.context?.getD "" = label := by
  intro c data h
  have hfollows := follows_run host plugins branch events world
  refine ⟨hfollows.lines, ?_, ?_, ?_⟩
  · intro source label arc
    rw [← branch_run host plugins branch events world]
    exact hfollows.arcs source label arc
  · intro before after hevents moment
    have hforce : moment.context? = (c.history before world).inForce :=
      (follows_run host plugins branch before world).activeLabel?
    constructor
    · intro hopened
      rw [hforce, History.inForce, hopened]
      rfl
    · intro innermost hinnermost
      have hopen : innermost ∈ (c.history before world).activations :=
        History.mem_activations.2 (.inl (List.mem_of_head? hinnermost))
      obtain ⟨a, ha, hgrows⟩ := c.extends_history before after world innermost hopen
      rw [← hevents] at ha
      refine ⟨a, ha, hgrows.number, ?_⟩
      rw [hforce, hgrows.label, History.inForce, hinnermost, Option.bind_some]
  · intro label step
    rw [mem_steps_iff, Measures]
    simp only [measuredStep_eq_some_iff]
    rfl

end Collector

end Coverage
