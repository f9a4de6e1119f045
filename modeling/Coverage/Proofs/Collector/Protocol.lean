/-
# The protocol of hook calls

The calls of an event are determined by what earlier events settled. An executed file
is settled by the first of its lines at which offering it did not fail: from then on
nobody is asked for the file, and all its lines use what was found out. Until then
every line offers it again. A claim is followed by two questions to its tracer, and a
line of a claimed file by those that measure it.

The statements are about the record that plug-ins keep of their calls, so about all
calls that are made and their order.
-/
import Mathlib.Data.List.Induction
import Coverage.Proofs.Collector.Asking

namespace Coverage

variable {σ : Type}

/-- The calls that measure a line of a file by its claim. -/
def Claim.measureCalls (claim : Claim σ) (host : Host) (frame : Frame) (world : σ) : List Call :=
  claim.disposition.measureCalls host claim.identity frame world

namespace Collector

section Settled

variable (first : Collector σ) (events : List Event) (world : σ) (filename : Path)

/-- Nothing was found out about a file: offering it fails at each of its lines. -/
def Fresh : Prop :=
  ∀ before frame, before ++ [.line frame] <+: events → compare frame.filename filename = .eq →
    ∃ failure, (first.plugins.fileTracer first.host frame.filename
      (first.run before world).2).1 = .error failure

/-- What was found out about a file, at the first of its lines at which offering it did
not fail. -/
def Settled (answer : Option (Claim σ)) : Prop :=
  ∃ before frame, before ++ [.line frame] <+: events ∧ compare frame.filename filename = .eq ∧
    first.Fresh before world filename ∧
    first.plugins.Answers first.host frame.filename (first.run before world).2 answer

/-- The calls of an event, by what earlier events settled. -/
inductive Asks : Event → List Call → Prop
  /-- The start of a frame is offered to the context switchers while no context is active. -/
  | call (frame : Frame) :
    Asks (.call frame)
      (if (first.run events world).1.context?.isNone then
        first.plugins.dynamicContextCalls frame (first.run events world).2
      else [])
  | ret (frame : Frame) : Asks (.ret frame) []
  /-- A line of a settled file is measured, if the file is claimed. -/
  | settled {frame : Frame} {answer : Option (Claim σ)}
    (h : first.Settled events world frame.filename answer) :
    Asks (.line frame)
      (answer.elim [] (·.measureCalls first.host frame (first.run events world).2))
  /-- A line of a fresh file offers it. -/
  | failed {frame : Frame} {failure : Failure} (fresh : first.Fresh events world frame.filename)
    (h : (first.plugins.fileTracer first.host frame.filename (first.run events world).2).1 =
      .error failure) :
    Asks (.line frame) (first.plugins.fileTracerCalls frame.filename (first.run events world).2)
  /-- If the file is claimed then, its tracer is asked about it, and measures the line. -/
  | answered {frame : Frame} {answer : Option (Claim σ)}
    (fresh : first.Fresh events world frame.filename)
    (h : first.plugins.Answers first.host frame.filename (first.run events world).2 answer) :
    Asks (.line frame)
      (first.plugins.fileTracerCalls frame.filename (first.run events world).2 ++
        answer.elim [] Claim.calls ++
        answer.elim [] (·.measureCalls first.host frame
          (first.plugins.fileTracer first.host frame.filename (first.run events world).2).2))

end Settled

variable {first : Collector σ} {events : List Event} {world : σ} {filename : Path}

/-! ## What is settled -/

theorem fresh_nil : first.Fresh [] world filename := by
  intro before frame hoccurs
  simp at hoccurs

theorem fresh_append_iff {event : Event} :
    first.Fresh (events ++ [event]) world filename ↔
      first.Fresh events world filename ∧
        ∀ frame, event = .line frame → compare frame.filename filename = .eq →
          ∃ failure, (first.plugins.fileTracer first.host frame.filename
            (first.run events world).2).1 = .error failure := by
  constructor
  · intro h
    refine ⟨fun before frame hoccurs => h before frame (hoccurs.trans (List.prefix_append _ _)), ?_⟩
    rintro frame rfl
    exact h events frame List.prefix_rfl
  · intro h
    obtain ⟨hfresh, hlast⟩ := h
    intro before frame hoccurs
    rcases occurs_append_iff.1 hoccurs with hearlier | ⟨rfl, hline⟩
    · exact hfresh before frame hearlier
    · exact hlast frame hline.symm

theorem not_settled_nil {answer : Option (Claim σ)} : ¬ first.Settled [] world filename answer := by
  intro h
  obtain ⟨before, frame, hoccurs, -⟩ := h
  simp at hoccurs

/-- One more event settles a file that was fresh, if it is a line of the file at which
offering it does not fail. -/
theorem settled_append_iff {event : Event} {answer : Option (Claim σ)} :
    first.Settled (events ++ [event]) world filename answer ↔
      first.Settled events world filename answer ∨
        first.Fresh events world filename ∧
          ∃ frame, event = .line frame ∧ compare frame.filename filename = .eq ∧
            first.plugins.Answers first.host frame.filename (first.run events world).2 answer := by
  constructor
  · intro h
    obtain ⟨before, frame, hoccurs, hsame, hfresh, hanswer⟩ := h
    rcases occurs_append_iff.1 hoccurs with hearlier | ⟨rfl, hline⟩
    · exact .inl ⟨before, frame, hearlier, hsame, hfresh, hanswer⟩
    · exact .inr ⟨hfresh, frame, hline.symm, hsame, hanswer⟩
  · intro h
    rcases h with ⟨before, frame, hoccurs, hsettled⟩ | ⟨hfresh, frame, rfl, hsame, hanswer⟩
    · exact ⟨before, frame, hoccurs.trans (List.prefix_append _ _), hsettled⟩
    · exact ⟨events, frame, List.prefix_rfl, hsame, hfresh, hanswer⟩

theorem Settled.append {answer : Option (Claim σ)}
    (h : first.Settled events world filename answer) (more : List Event) :
    first.Settled (events ++ more) world filename answer := by
  obtain ⟨before, frame, hoccurs, hsettled⟩ := h
  exact ⟨before, frame, hoccurs.trans (List.prefix_append _ _), hsettled⟩

theorem Settled.not_fresh {answer : Option (Claim σ)}
    (h : first.Settled events world filename answer) : ¬ first.Fresh events world filename := by
  intro hfresh
  obtain ⟨before, frame, hoccurs, hsame, -, hanswer⟩ := h
  obtain ⟨failure, hfailed⟩ := hfresh before frame hoccurs hsame
  rw [hanswer.fileTracer_eq] at hfailed
  cases hfailed

/-- A file is settled once. -/
theorem Settled.unique {answer other : Option (Claim σ)}
    (h : first.Settled events world filename answer)
    (hother : first.Settled events world filename other) : answer = other := by
  induction events using List.reverseRecOn with
  | nil => exact absurd h not_settled_nil
  | append_singleton events event ih =>
    rcases settled_append_iff.1 h with hold | ⟨hfresh, frame, rfl, -, hanswer⟩
    · rcases settled_append_iff.1 hother with hold' | ⟨hfresh, -⟩
      · exact ih hold hold'
      · exact absurd hfresh hold.not_fresh
    · rcases settled_append_iff.1 hother with hold | ⟨-, frame', hframe, -, hanswer'⟩
      · exact absurd hfresh hold.not_fresh
      · obtain rfl := Event.line.inj hframe
        exact hanswer.unique hanswer'

/-- Spellings of one file are fresh together. -/
theorem Fresh.congr (h : first.Fresh events world filename) {spelling : Path}
    (hsame : compare filename spelling = .eq) : first.Fresh events world spelling := by
  intro before frame hoccurs heq
  exact h before frame hoccurs (Std.TransCmp.eq_trans heq (Std.OrientedCmp.eq_symm hsame))

/-- Spellings of one file are settled together. -/
theorem Settled.congr {answer : Option (Claim σ)}
    (h : first.Settled events world filename answer) {spelling : Path}
    (hsame : compare filename spelling = .eq) : first.Settled events world spelling answer := by
  obtain ⟨before, frame, hoccurs, heq, hfresh, hanswer⟩ := h
  exact ⟨before, frame, hoccurs, Std.TransCmp.eq_trans heq hsame, hfresh.congr hsame, hanswer⟩

/-- The disposition of a settled file was made at the line that settled it: it keeps the
spelling there, and what its tracer said once. -/
theorem Settled.exists_claims {claim : Claim σ}
    (h : first.Settled events world filename (some claim)) :
    ∃ before frame, before ++ [.line frame] <+: events ∧ compare frame.filename filename = .eq ∧
      first.Fresh before world filename ∧
      first.plugins.Claims first.host frame.filename (first.run before world).2 claim.entry
        claim.disposition ∧
      claim.disposition.executedFilename = frame.filename ∧
      ∃ asked, claim.disposition.hasDynamicSource =
        (claim.disposition.tracer.hasDynamicSource asked).1 := by
  obtain ⟨before, frame, hoccurs, hsame, hfresh, hclaims⟩ := h
  refine ⟨before, frame, hoccurs, hsame, hfresh, hclaims, ?_⟩
  obtain ⟨_, _, _, asked, tracer, -, -, -, hmade⟩ := hclaims
  rw [hmade]
  exact ⟨rfl, asked, rfl⟩

/-- What was settled before determines the calls of an event. -/
theorem Asks.unique {event : Event} {calls other : List Call}
    (h : first.Asks events world event calls) (hother : first.Asks events world event other) :
    calls = other := by
  cases h with
  | call frame => cases hother; rfl
  | ret frame => cases hother; rfl
  | settled h =>
    cases hother with
    | settled hother => rw [h.unique hother]
    | failed fresh _ => exact absurd fresh h.not_fresh
    | answered fresh _ => exact absurd fresh h.not_fresh
  | failed fresh h =>
    cases hother with
    | settled hother => exact absurd fresh hother.not_fresh
    | failed _ _ => rfl
    | answered _ hanswer =>
      rw [hanswer.fileTracer_eq] at h
      cases h
  | answered fresh h =>
    cases hother with
    | settled hother => exact absurd fresh hother.not_fresh
    | failed _ hfailed =>
      rw [h.fileTracer_eq] at hfailed
      cases hfailed
    | answered _ hanswer => rw [h.unique hanswer]

/-! ## What is known -/

/-- A collector, and one whose plug-ins keep a record, know the same of a file. -/
def Knows (c : Collector σ) (told : Collector (Recorded σ)) (filename : Path)
    (found : Option (Option (Claim σ))) : Prop :=
  c.known.get? filename = found.map (·.map (·.disposition)) ∧
    told.known.get? filename = found.map (·.map Claim.recorded)

section Knows

variable {c : Collector σ} {told : Collector (Recorded σ)}

theorem Knows.step {answer : Option (Claim σ)} (h : Knows c told filename (some answer))
    (event : Event) (record : Recorded σ) :
    Knows (c.step event record.world).2.1 (told.step event record).2.1 filename (some answer) := by
  rw [Knows, get?_known_step, get?_known_step, h.1, h.2]
  exact ⟨rfl, rfl⟩

/-- A file that both do not know stays so unless it is offered and found out about. -/
theorem knows_step_of_none (haccords : c.Accords told) (h : Knows c told filename none)
    (event : Event) (record : Recorded σ) :
    Knows (c.step event record.world).2.1 (told.step event record).2.1 filename none ∧
        (∀ frame, event = .line frame → compare frame.filename filename = .eq →
          ∃ failure, (c.plugins.fileTracer c.host frame.filename record.world).1 =
            .error failure) ∨
      ∃ answer frame, event = .line frame ∧ compare frame.filename filename = .eq ∧
        c.plugins.Answers c.host frame.filename record.world answer ∧
        Knows (c.step event record.world).2.1 (told.step event record).2.1 filename
          (some answer) := by
  simp only [Knows, get?_known_step, h.1, h.2, Option.map_none, Option.none_or]
  by_cases hoffered : ∃ frame, event = .line frame ∧ compare frame.filename filename = .eq
  · obtain ⟨frame, rfl, hsame⟩ := hoffered
    simp only [finding?, if_pos hsame, haccords.host, haccords.plugins]
    obtain ⟨failure, hfailed, htold⟩ | ⟨answer, hanswer, htold⟩ :=
      c.plugins.fileTracer_recorded c.host frame.filename record
    · apply Or.inl
      rw [hfailed, htold]
      refine ⟨⟨rfl, rfl⟩, ?_⟩
      intro other hother _
      obtain rfl := Event.line.inj hother
      exact ⟨failure, hfailed⟩
    · refine .inr ⟨answer, frame, rfl, hsame, hanswer, ?_⟩
      rw [hanswer.fileTracer_eq, htold]
      exact ⟨rfl, rfl⟩
  · apply Or.inl
    refine ⟨⟨?_, ?_⟩, fun frame hline hsame => absurd ⟨frame, hline, hsame⟩ hoffered⟩
    all_goals
      cases event with
      | call frame => rfl
      | ret frame => rfl
      | line frame => exact if_neg fun hsame => hoffered ⟨frame, rfl, hsame⟩

end Knows

variable (host : Host) (plugins : Registry σ) (branch : Bool) (events : List Event) (world : σ)

/-- What is known of a file is what was settled. -/
theorem knows_run (filename : Path) :
    let first := start host plugins branch
    let told := (start host plugins.recorded branch).run events ⟨world, []⟩
    first.Fresh events world filename ∧ Knows (first.run events world).1 told.1 filename none ∨
      ∃ answer, first.Settled events world filename answer ∧
        Knows (first.run events world).1 told.1 filename (some answer) := by
  intro first
  induction events using List.reverseRecOn with
  | nil => exact .inl ⟨fresh_nil, rfl, rfl⟩
  | append_singleton events event ih =>
    have hrun := run_recorded (accords_start host plugins branch) events ⟨world, []⟩
    have hworld : ((start host plugins.recorded branch).run events ⟨world, []⟩).2.world =
        (first.run events world).2 := hrun.2
    simp only [run_append, run_cons, run_nil]
    rcases ih with ⟨hfresh, hknows⟩ | ⟨answer, hsettled, hknows⟩
    · have hstep := knows_step_of_none hrun.1 hknows event
        ((start host plugins.recorded branch).run events ⟨world, []⟩).2
      rw [hworld, (run_frame ..).2.1, (run_frame ..).2.2] at hstep
      rcases hstep with ⟨hnone, hfails⟩ | ⟨answer, frame, hline, hsame, hanswer, hsome⟩
      · exact .inl ⟨fresh_append_iff.2 ⟨hfresh, hfails⟩, hnone⟩
      · apply Or.inr
        exact ⟨answer, settled_append_iff.2 (.inr ⟨hfresh, frame, hline, hsame, hanswer⟩), hsome⟩
    · have hstep := hknows.step event
        ((start host plugins.recorded branch).run events ⟨world, []⟩).2
      rw [hworld] at hstep
      exact .inr ⟨answer, hsettled.append [event], hstep⟩

/-! ## The calls of an event -/

/-- A line of a file that is known, or offered, is measured if the file is claimed. -/
theorem calls_line {told : Collector (Recorded σ)} {frame : Frame} {record later : Recorded σ}
    {answer : Option (Claim σ)}
    (h : ((told.shouldTrace frame.filename record).1, (told.shouldTrace frame.filename record).2.2) =
      (.ok (answer.map Claim.recorded), later)) :
    (told.line frame record).2.2.calls =
      later.calls ++ answer.elim [] (·.measureCalls told.host frame later.world) := by
  have hline := congrArg Prod.snd (told.line_answer frame record)
  rcases hasked : told.shouldTrace frame.filename record with ⟨outcome, asked, after⟩
  rw [hasked] at h hline
  obtain ⟨rfl, rfl⟩ := Prod.mk.inj h
  cases answer with
  | none =>
    rw [hline, Option.elim_none, List.append_nil]
    rfl
  | some claim =>
    rw [hline]
    exact (measure_recorded told.host claim.disposition claim.identity frame after).calls_eq

/-- A line that offers its file in vain makes no other calls. -/
theorem calls_line_of_error {told : Collector (Recorded σ)} {frame : Frame}
    {record later : Recorded σ} {failure : Failure}
    (h : ((told.shouldTrace frame.filename record).1, (told.shouldTrace frame.filename record).2.2) =
      (.error failure, later)) :
    (told.line frame record).2.2.calls = later.calls := by
  have hline := congrArg Prod.snd (told.line_answer frame record)
  rcases hasked : told.shouldTrace frame.filename record with ⟨outcome, asked, after⟩
  rw [hasked] at h hline
  obtain ⟨rfl, rfl⟩ := Prod.mk.inj h
  exact congrArg Recorded.calls hline

/-- Each event of a run makes the calls that what was settled before asks for. -/
theorem asks_run (event : Event) :
    let first := start host plugins branch
    let told := (start host plugins.recorded branch).run events ⟨world, []⟩
    ∃ calls, (told.1.step event told.2).2.2.calls = told.2.calls ++ calls ∧
      first.Asks events world event calls := by
  intro first told
  have hrun := run_recorded (accords_start host plugins branch) events ⟨world, []⟩
  have haccords : (first.run events world).1.Accords told.1 := hrun.1
  have hworld : told.2.world = (first.run events world).2 := hrun.2
  obtain ⟨-, hhost, hplugins⟩ := first.run_frame events world
  cases event with
  | ret frame => exact ⟨[], (List.append_nil _).symm, .ret frame⟩
  | call frame =>
    have hcalls := (call_recorded haccords frame told.2).outcome.calls_eq
    refine ⟨_, hcalls, ?_⟩
    rw [hworld, hplugins]
    have hactive : (first.run events world).1.recorder.context.isNone =
        (first.run events world).1.context?.isNone := Option.isNone_map.symm
    rw [hactive]
    exact .call frame
  | line frame =>
    have htold : told.1.host = host := haccords.host.trans hhost
    have hrecorded : told.1.plugins = plugins.recorded := by
      rw [haccords.plugins, hplugins]
      rfl
    rcases knows_run host plugins branch events world frame.filename with
      ⟨hfresh, -, hknown⟩ | ⟨answer, hsettled, -, hknown⟩
    · have hoffered := told.1.shouldTrace_of_unknown hknown told.2
      rw [hrecorded, htold] at hoffered
      rcases plugins.fileTracer_recorded host frame.filename told.2 with
        ⟨failure, hfailed, hasked⟩ | ⟨answer, hanswer, hasked⟩
      · refine ⟨_, calls_line_of_error (hoffered.trans hasked), ?_⟩
        rw [hworld] at hfailed ⊢
        exact .failed hfresh hfailed
      · have hcalls := calls_line (hoffered.trans hasked)
        rw [htold] at hcalls
        simp only [List.append_assoc] at hcalls
        refine ⟨_, hcalls, ?_⟩
        rw [hworld, ← List.append_assoc]
        exact .answered hfresh (hworld ▸ hanswer)
    · have hoffered :
          ((told.1.shouldTrace frame.filename told.2).1,
            (told.1.shouldTrace frame.filename told.2).2.2) =
              (.ok (answer.map Claim.recorded), told.2) := by
        rw [told.1.shouldTrace_of_known hknown]
      refine ⟨_, calls_line hoffered, ?_⟩
      rw [htold, hworld]
      exact .settled hsettled

/-! ## The protocol -/

variable {host plugins branch events world}

/-- No event offers a file that is settled. -/
theorem Asks.not_offered {first : Collector σ} {event : Event} {calls : List Call}
    (h : first.Asks events world event calls) {answer : Option (Claim σ)}
    (hsettled : first.Settled events world filename answer) {plugin : String} {path : Path}
    (hcall : .fileTracer plugin path ∈ calls) : compare path filename ≠ .eq := by
  have hmeasured : ∀ {answer : Option (Claim σ)} {host : Host} {frame : Frame} {world : σ},
      .fileTracer plugin path ∉ answer.elim [] (·.measureCalls host frame world) := by
    intro answer host frame world hmem
    cases answer with
    | none => cases hmem
    | some claim => rcases Disposition.eq_of_mem_measureCalls hmem with heq | heq <;> cases heq
  have hoffered : ∀ {frame : Frame} {world' : σ}, first.Fresh events world frame.filename →
      .fileTracer plugin path ∈ first.plugins.fileTracerCalls frame.filename world' →
      compare path filename ≠ .eq := by
    intro frame world' hfresh hmem heq
    obtain ⟨_, hfile⟩ := Registry.exists_eq_fileTracer_of_mem hmem
    obtain ⟨-, rfl⟩ := Call.fileTracer.inj hfile
    exact hsettled.not_fresh (hfresh.congr heq)
  cases h with
  | ret frame => cases hcall
  | call frame =>
    split at hcall
    · exact (Registry.isSwitching_of_mem hcall).elim
    · cases hcall
  | settled h => exact absurd hcall hmeasured
  | failed fresh h => exact hoffered fresh hcall
  | @answered frame answer fresh h =>
    rcases List.mem_append.1 hcall with hcall | hcall
    · rcases List.mem_append.1 hcall with hcall | hcall
      · exact hoffered fresh hcall
      · cases answer with
        | none => cases hcall
        | some claim => simp [Claim.calls] at hcall
    · exact absurd hcall hmeasured

theorem shouldTrace_of_fresh (h : (start host plugins branch).Fresh events world filename)
    (later : σ) :
    let c := ((start host plugins branch).run events world).1
    ((c.shouldTrace filename later).1, (c.shouldTrace filename later).2.2) =
      plugins.fileTracer host filename later := by
  intro c
  rcases knows_run host plugins branch events world filename with
    ⟨-, hknown, -⟩ | ⟨answer, hsettled, -⟩
  · have hoffered := c.shouldTrace_of_unknown hknown later
    rwa [(run_frame ..).2.1, (run_frame ..).2.2] at hoffered
  · exact absurd h hsettled.not_fresh

theorem shouldTrace_of_settled {answer : Option (Claim σ)}
    (h : (start host plugins branch).Settled events world filename answer) (later : σ) :
    let c := ((start host plugins branch).run events world).1
    c.shouldTrace filename later = (.ok (answer.map (·.disposition)), c, later) := by
  intro c
  rcases knows_run host plugins branch events world filename with
    ⟨hfresh, -⟩ | ⟨other, hsettled, hknown, -⟩
  · exact absurd hfresh h.not_fresh
  · rw [h.unique hsettled]
    exact c.shouldTrace_of_known hknown later

/-- Whatever happens later, a file that is settled is not offered. -/
theorem not_offered_of_settled {answer : Option (Claim σ)}
    (h : (start host plugins branch).Settled events world filename answer) (more : List Event) :
    let told events := (start host plugins.recorded branch).run events ⟨world, []⟩
    ∃ calls, (told (events ++ more)).2.calls = (told events).2.calls ++ calls ∧
      ∀ plugin path, .fileTracer plugin path ∈ calls → compare path filename ≠ .eq := by
  intro told
  induction more using List.reverseRecOn with
  | nil =>
    refine ⟨[], ?_, fun _ _ hcall => by cases hcall⟩
    rw [List.append_nil, List.append_nil]
  | append_singleton more event ih =>
    obtain ⟨calls, hcalls, hothers⟩ := ih
    obtain ⟨last, hlast, hasks⟩ := asks_run host plugins branch (events ++ more) world event
    refine ⟨calls ++ last, ?_, ?_⟩
    · rw [← List.append_assoc, ← List.append_assoc, ← hcalls, ← hlast]
      simp only [told, run_append, run_cons, run_nil]
    · intro plugin path hcall
      rcases List.mem_append.1 hcall with hcall | hcall
      · exact hothers plugin path hcall
      · exact hasks.not_offered (h.append more) hcall

/-- Hooks are called by protocol. The calls of each event are determined by what was
settled before. A fresh file is offered at each of its lines and stays fresh if that
fails. A settled file stays settled with the same answer, all its lines use it, and it
is not offered again; if it is claimed, its disposition was made at the line that
settled it, with the spelling there. -/
theorem hooks_are_called_by_protocol (host : Host) (plugins : Registry σ) (branch : Bool)
    (events : List Event) (world : σ) :
    let first := start host plugins branch
    let after := (first.run events world).2
    let told events := (start host plugins.recorded branch).run events ⟨world, []⟩
    (told events).2.world = after ∧
    (∀ event, ∃ calls, (told (events ++ [event])).2.calls = (told events).2.calls ++ calls ∧
      ∀ other, first.Asks events world event other ↔ other = calls) ∧
    (∀ filename, first.Fresh events world filename ∨
      ∃ answer, first.Settled events world filename answer) ∧
    (∀ frame, first.Fresh events world frame.filename →
      ((first.run events world).1.shouldTrace frame.filename after).1 =
        (plugins.fileTracer host frame.filename after).1 ∧
      ∀ failure, (plugins.fileTracer host frame.filename after).1 = .error failure →
        first.Fresh (events ++ [.line frame]) world frame.filename) ∧
    ∀ filename answer, first.Settled events world filename answer →
      (∀ claim, answer = some claim → ∃ before frame,
        before ++ [.line frame] <+: events ∧ compare frame.filename filename = .eq ∧
        first.Fresh before world filename ∧
        plugins.Claims host frame.filename (first.run before world).2 claim.entry
          claim.disposition ∧
        claim.disposition.executedFilename = frame.filename ∧
        ∃ asked, claim.disposition.hasDynamicSource =
          (claim.disposition.tracer.hasDynamicSource asked).1) ∧
      ∀ more, (∀ other, first.Settled (events ++ more) world filename other ↔ other = answer) ∧
        (∀ spelling later, compare filename spelling = .eq →
          let c := (first.run (events ++ more) world).1
          c.shouldTrace spelling later = (.ok (answer.map (·.disposition)), c, later)) ∧
        ∃ calls, (told (events ++ more)).2.calls = (told events).2.calls ++ calls ∧
          ∀ plugin path, .fileTracer plugin path ∈ calls → compare path filename ≠ .eq := by
  intro first after told
  refine ⟨?_, ?_, ?_, ?_, ?_⟩
  · exact (run_recorded (accords_start host plugins branch) events ⟨world, []⟩).2
  · intro event
    obtain ⟨calls, hcalls, hasks⟩ := asks_run host plugins branch events world event
    refine ⟨calls, ?_, fun other => ⟨fun hother => hother.unique hasks, fun heq => heq ▸ hasks⟩⟩
    rw [← hcalls]
    simp only [told, run_append, run_cons, run_nil]
  · intro filename
    rcases knows_run host plugins branch events world filename with ⟨hfresh, -⟩ | ⟨answer, h, -⟩
    · exact .inl hfresh
    · exact .inr ⟨answer, h⟩
  · intro frame hfresh
    refine ⟨congrArg Prod.fst (shouldTrace_of_fresh hfresh after), ?_⟩
    intro failure hfailed
    apply fresh_append_iff.2
    refine ⟨hfresh, ?_⟩
    intro other hline _
    obtain rfl := Event.line.inj hline
    exact ⟨failure, hfailed⟩
  · intro filename answer hsettled
    refine ⟨?_, ?_⟩
    · rintro claim rfl
      exact hsettled.exists_claims
    · intro more
      have hlater : first.Settled (events ++ more) world filename answer := hsettled.append more
      refine ⟨?_, ?_, not_offered_of_settled hsettled more⟩
      · exact fun other => ⟨fun hother => hother.unique hlater, fun heq => heq ▸ hlater⟩
      · exact fun spelling later hsame => shouldTrace_of_settled (hlater.congr hsame) later

end Collector

end Coverage
