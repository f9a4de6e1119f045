/-
# The discipline of dynamic contexts

A recorder knows of a context only its label and a stack depth, which it compares
with the depth of the stack when a frame ends. Stacks also grow by lines without a
frame and shrink by ends without a start. The statement here is that the depth
singles out the right activation nevertheless: a context is active from the start
of the activation that it was given to until the end of that same activation, and
an activation works under one label for as long as it is open.

Nothing is said about which label a context switcher should give.
-/
import Coverage.Proofs.Activation.Recording
import Coverage.Proofs.Collector.Asking

namespace Coverage

variable {σ : Type}

namespace History

/-- No context is active when no open activation was given one. -/
theorem started_eq_none_iff {opened : List Activation} :
    started opened = none ↔ ∀ a ∈ opened, a.given = none := by
  induction opened with
  | nil => simp [started]
  | cons a outer ih =>
    rw [started, Option.or_eq_none_iff, ih, Option.map_eq_none_iff, List.forall_mem_cons]

/-- The active context is that of one open activation, which lies at its depth. -/
theorem started_eq_some_iff {opened : List Activation} (hnested : Nested opened) {label : String}
    {depth : Nat} :
    started opened = some (label, depth) ↔
      ∃ inner a outer, opened = inner ++ a :: outer ∧ depth = outer.length + 1 ∧
        a.given = some label ∧ ∀ b ∈ inner ++ outer, b.given = none := by
  constructor
  · intro h
    induction opened with
    | nil => cases h
    | cons a outer ih =>
      cases hgiven : a.given with
      | some given =>
        have houter : started outer = none := hnested.2.2.1.resolve_left (by simp [hgiven])
        rw [started_cons_of_some outer hgiven] at h
        cases h
        exact ⟨[], a, outer, rfl, rfl, hgiven, started_eq_none_iff.1 houter⟩
      | none =>
        rw [started_cons_of_none outer hgiven] at h
        obtain ⟨inner, b, rest, rfl, hdepth, hlabel, hothers⟩ := ih hnested.2.2.2 h
        exact ⟨a :: inner, b, rest, rfl, hdepth, hlabel, List.forall_mem_cons.2 ⟨hgiven, hothers⟩⟩
  · intro h
    obtain ⟨inner, a, outer, rfl, rfl, hgiven, hothers⟩ := h
    clear hnested
    induction inner with
    | nil => exact started_cons_of_some outer hgiven
    | cons b inner ih =>
      obtain ⟨hb, hothers⟩ := List.forall_mem_cons.1 hothers
      rw [List.cons_append, started_cons_of_none _ hb]
      exact ih hothers

end History

namespace Collector

/-- What holds of the dynamic context at a moment of a run, and what the next event
does to it. -/
structure Disciplined (c : Collector σ) (world : σ) (h : History) : Prop where
  /-- A context ends at a depth that the stack has. -/
  depth : ∀ label depth, c.recorder.context = some (label, depth) →
    1 ≤ depth ∧ depth ≤ c.recorder.stack.length
  /-- The active context is the one that was given to the open activation at its
  depth, and no other open activation was given one. -/
  owner : ∀ label depth, c.recorder.context = some (label, depth) ↔
    ∃ inner a outer, h.opened = inner ++ a :: outer ∧ depth = outer.length + 1 ∧
      a.given = some label ∧ ∀ b ∈ inner ++ outer, b.given = none
  /-- None is active exactly when no open activation was given one. -/
  inactive : c.recorder.context = none ↔ ∀ a ∈ h.opened, a.given = none
  /-- The start of a frame leaves an active context alone. While none is active it
  starts the one that is named, at the depth of the new activation. -/
  call : ∀ frame, (c.step (.call frame) world).2.1.recorder.context =
    c.recorder.context.or
      ((c.plugins.dynamicContext frame world).1.toOption.join.map
        fun label => (label, c.recorder.stack.length + 1))
  /-- The new activation was given that label, or none. -/
  opens : ∀ frame, ∃ a, (h.take (c.signal (.call frame) world)).opened = a :: h.opened ∧
    a.number = h.size ∧
    a.given = if c.recorder.context.isNone then
      (c.plugins.dynamicContext frame world).1.toOption.join else none
  /-- A line leaves the context alone. -/
  line : ∀ frame, (c.step (.line frame) world).2.1.recorder.context = c.recorder.context
  /-- An activation that a line opens is given no label. -/
  implicit : h.opened = [] → ∀ frame, ∀ a ∈ (h.take (c.signal (.line frame) world)).opened,
    a.given = none
  /-- The end of a frame ends the context of the activation that it closes, and no
  other one. -/
  ret : ∀ frame, (c.step (.ret frame) world).2.1.recorder.context =
    if h.opened.head?.any (·.given.isSome) then none else c.recorder.context
  /-- An event writes under the label of the active context only. -/
  writes : ∀ event source label, c.context?.getD "" ≠ label →
    (∀ line, line ∈ (c.step event world).2.1.data.linesIn source label ↔
      line ∈ c.data.linesIn source label) ∧
    ∀ arc, arc ∈ (c.step event world).2.1.data.arcsIn source label ↔
      arc ∈ c.data.arcsIn source label

/-- While no context is active, a frame is given what the context switchers say. -/
theorem givenLabel_of_none {c : Collector σ} (hnone : c.recorder.context = none) (frame : Frame)
    (world : σ) :
    c.givenLabel frame world = (c.plugins.dynamicContext frame world).1.toOption.join := by
  rw [givenLabel, hnone, Option.isNone_none, Bool.true_and]
  split
  · rcases c.plugins.dynamicContext frame world with ⟨_ | _, _⟩ <;> rfl
  · next hnobody =>
    have hempty : c.plugins.withCapability .dynamicContext = [] := by
      by_contra hne
      exact hnobody (c.plugins.hasContextSwitchers_of_ne_nil hne)
    rw [Registry.dynamicContext, hempty]
    rfl

namespace Disciplined

variable {c : Collector σ} {world : σ} {h : History}

theorem context_call (frame : Frame) :
    (c.step (.call frame) world).2.1.recorder.context =
      c.recorder.context.or
        ((c.plugins.dynamicContext frame world).1.toOption.join.map
          fun label => (label, c.recorder.stack.length + 1)) := by
  rw [(c.step_frame _ world).1, signal]
  cases hcontext : c.recorder.context with
  | none =>
    rw [givenLabel_of_none hcontext, Option.none_or]
    cases (c.plugins.dynamicContext frame world).1.toOption.join with
    | none => exact hcontext
    | some label =>
      rw [Recorder.take, hcontext]
      rfl
  | some context =>
    rw [Option.some_or]
    cases c.givenLabel frame world with
    | none => exact hcontext
    | some label =>
      rw [Recorder.take, hcontext]
      exact hcontext

theorem context_line (frame : Frame) :
    (c.step (.line frame) world).2.1.recorder.context = c.recorder.context := by
  rw [(c.step_frame _ world).1, signal]
  have hentered : c.recorder.ensureEntered.context = c.recorder.context := by
    rw [Recorder.ensureEntered]
    split <;> rfl
  cases c.measuredStep frame world with
  | none => exact hentered
  | some step =>
    obtain ⟨_, _, hstack, _, _⟩ := c.recorder.exists_stack_ensureEntered
    exact (Recorder.frame_execute hstack).2.1.trans hentered

theorem context_ret (hr : c.recorder.Follows h) (frame : Frame) :
    (c.step (.ret frame) world).2.1.recorder.context =
      if h.opened.head?.any (·.given.isSome) then none else c.recorder.context := by
  rw [(c.step_frame _ world).1]
  apply hr.leave.context.trans
  rw [hr.context, History.leave]
  cases hopened : h.opened with
  | nil => rw [hopened]; rfl
  | cons a outer =>
    exact History.started_tail (hopened ▸ hr.nested : History.Nested (a :: outer)).2.2.1

/-- A moment at which the recorder follows the history is disciplined. -/
theorem of_follows (hr : c.recorder.Follows h) : c.Disciplined world h where
  depth label depth hcontext := by
    rw [hr.context] at hcontext
    rw [hr.stack, List.length_map]
    exact History.depth_started hcontext
  owner label depth := by
    rw [hr.context]
    exact History.started_eq_some_iff hr.nested
  inactive := by
    rw [hr.context]
    exact History.started_eq_none_iff
  call := context_call
  opens frame := by
    refine ⟨_, rfl, rfl, ?_⟩
    have hforce : h.inForce.isNone = c.recorder.context.isNone := by
      rw [← hr.activeLabel?, Recorder.activeLabel?, Option.isNone_map]
    dsimp only
    rw [hforce]
    split
    · next hnone => exact givenLabel_of_none (Option.isNone_iff_eq_none.1 hnone) frame world
    · rfl
  line := context_line
  implicit hnil frame := by
    rw [signal]
    have hentered : ∀ a ∈ h.ensureEntered.opened, a.given = none := by
      rw [History.ensureEntered_of_nil hnil, History.enter, hnil]
      intro a ha
      rw [List.mem_singleton.1 ha]
      split <;> rfl
    cases c.measuredStep frame world with
    | none => exact hentered
    | some step =>
      obtain ⟨a, outer, hopened⟩ := h.exists_opened_ensureEntered
      rw [History.take, History.measure, hopened]
      rw [hopened] at hentered
      exact List.forall_mem_cons.2 (List.forall_mem_cons.1 hentered)
  ret := context_ret hr
  writes event source label hne := by
    have hlabel : c.recorder.label ≠ label := hne
    rw [data, (c.step_frame event world).1]
    exact Recorder.views_take_of_ne hlabel _

end Disciplined

/-- Dynamic contexts keep their discipline at every moment of a run, whether or not
starts and ends match and whatever fails. The context is the same at all moments
at which one activation is the innermost one, so all that the activation records
goes under one label. Context switchers are asked by the start of a frame while no
context is active, and at no other time. -/
theorem dynamic_context_discipline (host : Host) (plugins : Registry σ) (branch : Bool)
    (events : List Event) (world : σ) :
    let first := start host plugins branch
    let c := (first.run events world).1
    let after := (first.run events world).2
    let h := first.history events world
    let told := (start host plugins.recorded branch).run events ⟨world, []⟩
    c.Disciplined after h ∧
    (∀ event, first.history (events ++ [event]) world = h.take (c.signal event after)) ∧
    (∀ before later, events = before ++ later →
      ∀ a ∈ (first.history before world).opened.head?, ∀ b ∈ h.opened.head?,
        a.number = b.number → (first.run before world).1.context? = c.context?) ∧
    told.1.recorder = c.recorder ∧ told.2.world = after ∧
    ∀ event, ∃ calls, (told.1.step event told.2).2.2.calls = told.2.calls ++ calls ∧
      ((∃ call ∈ calls, call.IsSwitching) ↔ (∃ frame, event = .call frame) ∧
        c.recorder.context = none ∧ plugins.withCapability .dynamicContext ≠ []) := by
  intro first c after h told
  have hfollows : c.recorder.Follows h := follows_run host plugins branch events world
  obtain ⟨haccords, hworld⟩ :=
    run_recorded (accords_start host plugins branch) events ⟨world, []⟩
  refine ⟨.of_follows hfollows, ?_, ?_, haccords.recorder, hworld, ?_⟩
  · intro event
    rw [history_append]
    rfl
  · intro before later hevents a ha b hb hnumber
    have hbefore := follows_run host plugins branch before world
    obtain ⟨grown, hgrown, hgrows⟩ := first.extends_history before later world a
      (History.mem_activations.2 (.inl (List.mem_of_head? ha)))
    rw [← hevents] at hgrown
    have hsame : grown = b :=
      (History.numbered_ofSignals _).eq_of_number hgrown
        (History.mem_activations.2 (.inl (List.mem_of_head? hb))) (hgrows.number.trans hnumber)
    calc (first.run before world).1.context?
      _ = a.label := by rw [context?, hbefore.activeLabel?, History.inForce, ha, Option.bind_some]
      _ = b.label := by rw [← hsame, hgrows.label]
      _ = c.context? := by rw [context?, hfollows.activeLabel?, History.inForce, hb,
        Option.bind_some]
  · intro event
    obtain ⟨calls, hagree, hasked⟩ := step_recorded haccords event told.2
    have hplugins : c.plugins = plugins := (first.run_frame events world).2.2
    rw [hplugins] at hasked
    exact ⟨calls, hagree.outcome.calls_eq, hasked⟩

end Collector

end Coverage
