/-
# What a run asks

A run over plug-ins that keep a record of their calls is the same run: it records
the same data and leaves the world the same. The record that it leaves says what
each event asked. The context switchers are asked by the start of a frame while no
context is active, and by nothing else.
-/
import Coverage.Proofs.Collector.Signal
import Coverage.Proofs.Registry.Asking

namespace Coverage

variable {σ α β : Type}

namespace Disposition

/-- The calls that find the source file of a frame. -/
def sourceCalls (disposition : Disposition σ) (identity : String) (frame : Frame) : List Call :=
  if disposition.hasDynamicSource then
    [.dynamicSource identity disposition.executedFilename frame]
  else []

/-- The calls that measure a line: those that find the source file, and one for the
range of lines if there is a source file. -/
def measureCalls (host : Host) (disposition : Disposition σ) (identity : String) (frame : Frame)
    (world : σ) : List Call :=
  disposition.sourceCalls identity frame ++
    match (disposition.sourceFor host frame world).1 with
    | .ok (some _) => [.lineRange identity frame]
    | _ => []

/-- Measuring a line calls two hooks of a tracer at most. -/
theorem eq_of_mem_measureCalls {host : Host} {disposition : Disposition σ} {identity : String}
    {frame : Frame} {world : σ} {call : Call}
    (h : call ∈ disposition.measureCalls host identity frame world) :
    call = .dynamicSource identity disposition.executedFilename frame ∨
      call = .lineRange identity frame := by
  rcases List.mem_append.1 h with h | h
  · rw [sourceCalls] at h
    split at h
    · exact .inl (List.mem_singleton.1 h)
    · cases h
  · split at h
    · exact .inr (List.mem_singleton.1 h)
    · cases h

theorem isTracing_of_mem {host : Host} {disposition : Disposition σ} {identity : String}
    {frame : Frame} {world : σ} {call : Call}
    (h : call ∈ disposition.measureCalls host identity frame world) : call.IsTracing := by
  rcases eq_of_mem_measureCalls h with rfl | rfl <;> trivial

end Disposition

namespace Collector

/-- A collector, and one whose plug-ins keep a record, at the same point of a run. -/
structure Accords (c : Collector σ) (told : Collector (Recorded σ)) : Prop where
  host : told.host = c.host
  plugins : told.plugins = c.plugins.recorded
  recorder : told.recorder = c.recorder
  known : ∀ filename,
    Option.Rel (Option.Rel fun d told => ∃ identity, told = Disposition.recorded d identity)
      (c.known.get? filename) (told.known.get? filename)

/-- Both come to the same, and leave the record with these calls. -/
structure Agree (R : α → β → Prop) (calls : List Call) (plain : Outcome σ α)
    (told : Outcome (Recorded σ) β) : Prop where
  outcome : Mirrors R calls (plain.1, plain.2.2) (told.1, told.2.2)
  collector : plain.2.1.Accords told.2.1

variable {c : Collector σ} {told : Collector (Recorded σ)}

theorem accords_start (host : Host) (plugins : Registry σ) (branch : Bool) :
    (start host plugins branch).Accords (start host plugins.recorded branch) :=
  ⟨rfl, rfl, rfl, fun _ => .none⟩

theorem Accords.mapRecorder (h : c.Accords told) (change : Recorder → Recorder) :
    (c.mapRecorder change).Accords (told.mapRecorder change) where
  host := h.host
  plugins := h.plugins
  recorder := congrArg change h.recorder
  known := h.known

/-- Offering a file asks file tracers and their tracers. -/
theorem shouldTrace_recorded (h : c.Accords told) (filename : Path) (record : Recorded σ) :
    ∃ calls : List Call, (∀ call ∈ calls, call.IsTracing) ∧
      Agree (Option.Rel fun d told => ∃ identity, told = Disposition.recorded d identity)
        (record.calls ++ calls) (c.shouldTrace filename record.world)
        (told.shouldTrace filename record) := by
  have hknown := h.known filename
  rw [shouldTrace, shouldTrace, h.host, h.plugins]
  generalize hplain : c.known.get? filename = plain at hknown ⊢
  generalize htold : told.known.get? filename = outcome at hknown ⊢
  cases hknown with
  | some hknown =>
    refine ⟨[], by simp, ?_, h⟩
    rw [List.append_nil]
    exact .ok hknown
  | none =>
    have hoffers : ∀ call ∈ c.plugins.fileTracerCalls filename record.world, call.IsTracing := by
      intro call hcall
      obtain ⟨_, rfl⟩ := Registry.exists_eq_fileTracer_of_mem hcall
      trivial
    have hasked := c.plugins.fileTracer_recorded c.host filename record
    rcases hplain : c.plugins.fileTracer c.host filename record.world with ⟨outcome, after⟩
    rw [hplain] at hasked
    obtain ⟨failure, hfailed, htold⟩ | ⟨answer, hanswer, htold⟩ := hasked
    · obtain rfl : outcome = .error failure := hfailed
      refine ⟨_, hoffers, ?_⟩
      rw [htold]
      exact ⟨.error, h⟩
    · have hfound := hanswer.fileTracer_eq
      rw [hplain] at hfound
      obtain rfl : outcome = .ok (answer.map (·.disposition)) := hfound
      have hrecorded : Option.Rel (fun d told => ∃ identity, told = Disposition.recorded d identity)
          (answer.map (·.disposition)) (answer.map Claim.recorded) := by
        cases answer with
        | none => exact .none
        | some claim => exact .some ⟨claim.identity, rfl⟩
      refine ⟨c.plugins.fileTracerCalls filename record.world ++ answer.elim [] Claim.calls, ?_, ?_⟩
      · intro call hcall
        rcases List.mem_append.1 hcall with hcall | hcall
        · exact hoffers call hcall
        · cases answer with
          | none => cases hcall
          | some claim => exact claim.isTracing_of_mem_calls hcall
      · rw [htold, ← List.append_assoc]
        refine ⟨.ok hrecorded, rfl, rfl, h.recorder, fun other => ?_⟩
        rw [SortedMap.get?_insert, SortedMap.get?_insert]
        split
        · exact .some hrecorded
        · exact h.known other

section Measure

variable (host : Host) (disposition : Disposition σ) (identity : String) (frame : Frame)
  (record : Recorded σ)

theorem sourceFor_recorded :
    Mirrors Eq (record.calls ++ disposition.sourceCalls identity frame)
      (disposition.sourceFor host frame record.world)
      ((disposition.recorded identity).sourceFor host frame record) := by
  have hasked := Hook.mirrors_named disposition.plugin .dynamicSourceFilename
    (Hook.mirrors_recorded (disposition.tracer.dynamicSource disposition.executedFilename frame)
      (.dynamicSource identity disposition.executedFilename frame) record)
  rw [Disposition.sourceFor, Disposition.sourceFor, Disposition.sourceCalls]
  by_cases hdynamic : disposition.hasDynamicSource = true
  · have htold : (disposition.recorded identity).hasDynamicSource = true := hdynamic
    rw [if_pos hdynamic, if_pos hdynamic, if_pos htold]
    simp only [Disposition.recorded, Tracer.recorded]
    generalize Hook.named disposition.plugin .dynamicSourceFilename _ record.world = plain
      at hasked ⊢
    generalize Hook.named disposition.plugin .dynamicSourceFilename _ record = told at hasked ⊢
    cases hasked with
    | error => exact .error
    | ok heq => exact .ok (congrArg (Option.map host.canonical) heq)
  · have htold : ¬ (disposition.recorded identity).hasDynamicSource = true := hdynamic
    rw [if_neg hdynamic, if_neg hdynamic, if_neg htold, List.append_nil]
    exact .ok rfl

theorem lineRange_recorded :
    Mirrors Eq (record.calls ++ [.lineRange identity frame])
      (disposition.lineRange frame record.world)
      ((disposition.recorded identity).lineRange frame record) :=
  Hook.mirrors_named disposition.plugin .lineNumberRange
    (Hook.mirrors_recorded (disposition.tracer.lineRange frame) _ record)

/-- Measuring a line asks the tracer of its file. -/
theorem measure_recorded :
    Mirrors Eq (record.calls ++ disposition.measureCalls host identity frame record.world)
      (measure host disposition frame record.world)
      (measure host (disposition.recorded identity) frame record) := by
  have hsource := sourceFor_recorded host disposition identity frame record
  rw [measure, measure, Disposition.measureCalls, ← List.append_assoc]
  generalize disposition.sourceFor host frame record.world = plain at hsource ⊢
  generalize (disposition.recorded identity).sourceFor host frame record = told at hsource ⊢
  cases hsource with
  | error =>
    dsimp only
    rw [List.append_nil]
    exact .error
  | @ok source _ world heq =>
    subst heq
    cases source with
    | none =>
      dsimp only
      rw [List.append_nil]
      exact .ok rfl
    | some source =>
      have hrange := lineRange_recorded disposition identity frame
        ⟨world, record.calls ++ disposition.sourceCalls identity frame⟩
      dsimp only
      generalize disposition.lineRange frame world = plain at hrange ⊢
      generalize (disposition.recorded identity).lineRange frame _ = told at hrange ⊢
      cases hrange with
      | error => exact .error
      | @ok range _ _ heq =>
        subst heq
        dsimp only
        split
        · exact .ok rfl
        · exact .ok rfl

end Measure

/-- A line asks file tracers and the tracer of its file, and no context switcher. -/
theorem line_recorded (h : c.Accords told) (frame : Frame) (record : Recorded σ) :
    ∃ calls : List Call, (∀ call ∈ calls, call.IsTracing) ∧
      Agree Eq (record.calls ++ calls) (c.line frame record.world) (told.line frame record) := by
  obtain ⟨calls, htracing, hoffered⟩ :=
    shouldTrace_recorded (h.mapRecorder .ensureEntered) frame.filename record
  rw [line, line]
  generalize (c.mapRecorder .ensureEntered).shouldTrace frame.filename record.world = plain
    at hoffered ⊢
  generalize (told.mapRecorder .ensureEntered).shouldTrace frame.filename record = outcome
    at hoffered ⊢
  obtain ⟨plainAnswer, plainAsked, plainWorld⟩ := plain
  obtain ⟨toldAnswer, toldAsked, toldRecord⟩ := outcome
  obtain ⟨houtcome, hasked⟩ := hoffered
  dsimp only at houtcome hasked ⊢
  cases houtcome with
  | error => exact ⟨calls, htracing, .error, hasked⟩
  | ok answer =>
    cases answer with
    | none => exact ⟨calls, htracing, .ok rfl, hasked⟩
    | @some disposition _ answer =>
      obtain ⟨identity, rfl⟩ := answer
      have hmeasured := measure_recorded plainAsked.host disposition identity frame
        ⟨plainWorld, record.calls ++ calls⟩
      refine ⟨calls ++ disposition.measureCalls plainAsked.host identity frame plainWorld, ?_, ?_⟩
      · intro call hcall
        exact (List.mem_append.1 hcall).elim (htracing call) Disposition.isTracing_of_mem
      · rw [List.append_assoc] at hmeasured
        dsimp only
        rw [hasked.host]
        generalize measure plainAsked.host disposition frame plainWorld = plain at hmeasured ⊢
        generalize measure plainAsked.host (disposition.recorded identity) frame _ = outcome
          at hmeasured ⊢
        cases hmeasured with
        | error => exact ⟨.error, hasked⟩
        | @ok step _ _ heq =>
          subst heq
          cases step with
          | none => exact ⟨.ok rfl, hasked⟩
          | some step => exact ⟨.ok rfl, hasked.mapRecorder (·.execute step)⟩

/-- The start of a frame asks context switchers, if no context is active. -/
theorem call_recorded (h : c.Accords told) (frame : Frame) (record : Recorded σ) :
    Agree Eq
      (record.calls ++
        if c.recorder.context.isNone then c.plugins.dynamicContextCalls frame record.world else [])
      (c.call frame record.world) (told.call frame record) := by
  have hentered := h.mapRecorder .enter
  have hswitchers : told.plugins.hasContextSwitchers = c.plugins.hasContextSwitchers := by
    rw [h.plugins]
    rfl
  have hcontext : ∀ {ρ : Type} (c : Collector ρ),
      (c.mapRecorder .enter).recorder.context = c.recorder.context := fun _ => rfl
  rw [call, call]
  simp only [hcontext, plugins_mapRecorder, hswitchers, h.recorder]
  by_cases hasked : (c.recorder.context.isNone && c.plugins.hasContextSwitchers) = true
  · have hanswer := c.plugins.dynamicContext_recorded frame record
    rw [if_pos hasked, if_pos hasked, if_pos (Bool.and_eq_true_iff.1 hasked).1, h.plugins]
    generalize c.plugins.dynamicContext frame record.world = plain at hanswer ⊢
    generalize c.plugins.recorded.dynamicContext frame record = outcome at hanswer ⊢
    cases hanswer with
    | error => exact ⟨.error, hentered⟩
    | @ok answer _ _ heq =>
      subst heq
      cases answer with
      | none => exact ⟨.ok rfl, hentered⟩
      | some label => exact ⟨.ok rfl, hentered.mapRecorder (·.startContext label)⟩
  · have hnobody : (if c.recorder.context.isNone then
        c.plugins.dynamicContextCalls frame record.world else []) = [] := by
      split
      · next hnone =>
        apply Registry.dynamicContextCalls_eq_nil
        by_contra hlisted
        exact hasked (Bool.and_eq_true_iff.2
          ⟨hnone, c.plugins.hasContextSwitchers_of_ne_nil hlisted⟩)
      · rfl
    rw [if_neg hasked, if_neg hasked, hnobody, List.append_nil]
    exact ⟨.ok rfl, hentered⟩

/-- An event comes to the same over recorded plug-ins. It asks a context switcher
exactly when it is the start of a frame, no context is active and there is one. -/
theorem step_recorded (h : c.Accords told) (event : Event) (record : Recorded σ) :
    ∃ calls, Agree Eq (record.calls ++ calls) (c.step event record.world) (told.step event record) ∧
      ((∃ call ∈ calls, call.IsSwitching) ↔ (∃ frame, event = .call frame) ∧
        c.recorder.context = none ∧ c.plugins.withCapability .dynamicContext ≠ []) := by
  cases event with
  | ret frame =>
    refine ⟨[], ⟨?_, h.mapRecorder .leave⟩, by simp⟩
    rw [List.append_nil]
    exact .ok rfl
  | line frame =>
    obtain ⟨calls, htracing, hagree⟩ := line_recorded h frame record
    refine ⟨calls, hagree, ?_⟩
    constructor
    · intro hasked
      obtain ⟨call, hcall, hswitching⟩ := hasked
      exact absurd hswitching (htracing call hcall).not_isSwitching
    · intro hasked
      obtain ⟨⟨_, hcall⟩, -⟩ := hasked
      cases hcall
  | call frame =>
    refine ⟨_, call_recorded h frame record, ?_⟩
    cases hcontext : c.recorder.context with
    | some context => simp
    | none =>
      rw [Option.isNone_none, if_pos rfl]
      constructor
      · intro hasked
        obtain ⟨call, hcall, -⟩ := hasked
        refine ⟨⟨frame, rfl⟩, rfl, ?_⟩
        intro hnobody
        rw [Registry.dynamicContextCalls_eq_nil hnobody] at hcall
        cases hcall
      · intro hasked
        obtain ⟨call, hcall⟩ := List.exists_mem_of_ne_nil _
          (Registry.dynamicContextCalls_ne_nil hasked.2.2 frame record.world)
        exact ⟨call, hcall, Registry.isSwitching_of_mem hcall⟩

/-- A run over recorded plug-ins is the same run. -/
theorem run_recorded (h : c.Accords told) (events : List Event) (record : Recorded σ) :
    (c.run events record.world).1.Accords (told.run events record).1 ∧
      (told.run events record).2.world = (c.run events record.world).2 := by
  induction events generalizing c told record with
  | nil => exact ⟨h, rfl⟩
  | cons event events ih =>
    obtain ⟨calls, hagree, -⟩ := step_recorded h event record
    have hworld : (told.step event record).2.2.world = (c.step event record.world).2.2 :=
      hagree.outcome.world_eq
    rw [run_cons, run_cons, ← hworld]
    exact ih hagree.collector _

end Collector

end Coverage
