/-
# From a recorded file to its reporter

What was recorded of a file carries the display name of a plug-in, and the name is
all that leads back to the plug-in when the file is reported. The way back is the
right one: the name belongs to the plug-in object that claimed the executed file
whose line was the first to record something for the source file, and the
registry has that object, and only that object, under the name. Registering more
plug-ins changes nothing about it.

An executed file is claimed once and its disposition is kept, so the line that
records first may come after the line that was the occasion of the claim.
-/
import Mathlib.Data.List.Induction
import Coverage.Proofs.Collector.Asking
import Coverage.Proofs.Recorder.Credit
import Coverage.Proofs.Registry.Arbitration

namespace Coverage

variable {σ : Type}

open Recorder

namespace Collector

/-! ## Claims of a run -/

/-- A disposition that is known after an event was known before, or the file was
claimed at the event. -/
theorem known_step {c : Collector σ} {event : Event} {world : σ} {filename : Path}
    {disposition : Disposition σ}
    (h : (c.step event world).2.1.known.get? filename = some (some disposition)) :
    c.known.get? filename = some (some disposition) ∨
      ∃ frame, event = .line frame ∧ compare frame.filename filename = .eq ∧
        (c.plugins.fileTracer c.host frame.filename world).1 = .ok (some disposition) := by
  rw [get?_known_step, Option.or_eq_some_iff] at h
  rcases h with hknown | ⟨-, hfound⟩
  · exact .inl hknown
  · exact .inr (c.finding?_eq_some_iff.1 hfound)

/-- A disposition comes from a claim by an entry at an earlier line, or at the last
one, in an executed file with the same name. -/
def ClaimedIn (first : Collector σ) (events : List Event) (world : σ) (filename : Path)
    (entry : RegistryEntry σ) (disposition : Disposition σ) : Prop :=
  ∃ before frame after, events = before ++ .line frame :: after ∧
    compare frame.filename filename = .eq ∧
    first.plugins.Claims first.host frame.filename (first.run before world).2 entry disposition

theorem ClaimedIn.append {first : Collector σ} {events : List Event} {world : σ} {filename : Path}
    {entry : RegistryEntry σ} {disposition : Disposition σ}
    (h : first.ClaimedIn events world filename entry disposition) (more : List Event) :
    first.ClaimedIn (events ++ more) world filename entry disposition := by
  obtain ⟨before, frame, after, rfl, hclaim⟩ := h
  refine ⟨before, frame, after ++ more, ?_, hclaim⟩
  rw [List.append_assoc, List.cons_append]

variable {host : Host} {plugins : Registry σ} {branch : Bool} {events : List Event} {world : σ}

/-- At every moment of a run, the dispositions that are known come from claims. -/
theorem claimedIn_of_known {filename : Path} {disposition : Disposition σ}
    (h : ((start host plugins branch).run events world).1.known.get? filename =
      some (some disposition)) :
    ∃ entry, (start host plugins branch).ClaimedIn events world filename entry disposition := by
  induction events using List.reverseRecOn with
  | nil => cases h
  | append_singleton events event ih =>
    rw [run_append, run_cons, run_nil] at h
    rcases known_step h with hknown | ⟨frame, rfl, hsame, hasked⟩
    · obtain ⟨entry, hclaim⟩ := ih hknown
      exact ⟨entry, hclaim.append [event]⟩
    · rw [(run_frame ..).2.1, (run_frame ..).2.2] at hasked
      obtain ⟨entry, hclaim⟩ := Registry.fileTracer_eq_some_iff.1 hasked
      exact ⟨entry, events, frame, [], rfl, hsame, hclaim⟩

/-- The disposition of a line comes from a claim. -/
theorem claimedIn_of_shouldTrace {frame : Frame} {disposition : Disposition σ}
    (h : (((start host plugins branch).run events world).1.shouldTrace frame.filename
      ((start host plugins branch).run events world).2).1 = .ok (some disposition)) :
    ∃ entry, (start host plugins branch).ClaimedIn (events ++ [.line frame]) world frame.filename
      entry disposition := by
  obtain ⟨outcome, hknown, hc⟩ | ⟨_, _, -, -, hc⟩ | ⟨outcome, _, -, hasked, hc⟩ :=
    ((start host plugins branch).run events world).1.shouldTrace_cases frame.filename
      ((start host plugins branch).run events world).2
  · rw [hc] at h
    rw [Except.ok.inj h] at hknown
    obtain ⟨entry, hclaim⟩ := claimedIn_of_known hknown
    exact ⟨entry, hclaim.append _⟩
  · rw [hc] at h
    cases h
  · rw [hc] at h
    rw [Except.ok.inj h, (run_frame ..).2.1, (run_frame ..).2.2] at hasked
    obtain ⟨entry, hclaim⟩ :=
      Registry.fileTracer_eq_some_iff.1 (congrArg Prod.fst hasked)
    exact ⟨entry, events, frame, [], rfl, Std.ReflCmp.compare_self, hclaim⟩

/-! ## The first line that records -/

/-- A signal of a run is that of an event of the run. -/
theorem exists_event_of_signals {c : Collector σ} {before after : List Signal} {signal : Signal}
    (h : c.signals events world = before ++ signal :: after) :
    ∃ first event rest, events = first ++ event :: rest ∧ c.signals first world = before ∧
      (c.run first world).1.signal event (c.run first world).2 = signal := by
  induction events generalizing c world before with
  | nil => simp [signals] at h
  | cons event events ih =>
    rw [signals] at h
    cases before with
    | nil => exact ⟨[], event, events, rfl, rfl, List.head_eq_of_cons_eq h⟩
    | cons earlier before =>
      obtain ⟨first, found, rest, hevents, hsignals, hsignal⟩ := ih (List.tail_eq_of_cons_eq h)
      refine ⟨event :: first, found, rest, by rw [hevents, List.cons_append], ?_, hsignal⟩
      rw [signals, hsignals, List.head_eq_of_cons_eq h]

/-- The credits of a run are settled by its signals. -/
theorem tracer?_run (source : Path) :
    ((start host plugins branch).run events world).1.data.tracer? source =
      ((start host plugins branch).signals events world).findSome? (·.credit? source) := by
  have hcredited : (Recorder.start branch).Credited := fun _ h => by cases h
  rw [data, (run_frame ..).1]
  exact (tracer?_foldl_take hcredited _ source).trans Option.none_or

/-- A line is the first of a run to record something for a source file, by a
disposition that an entry claimed. -/
structure FirstRecords (first : Collector σ) (events : List Event) (world : σ) (source : Path)
    (before : List Event) (frame : Frame) (entry : RegistryEntry σ) : Prop where
  /-- The line is an event of the run. -/
  occurs : before ++ [.line frame] <+: events
  /-- Nothing was recorded for the source file before. -/
  fresh : (first.run before world).1.data.tracer? source = none
  /-- The line is measured in the source file, by a disposition that the entry claimed. -/
  measured : ∃ disposition step,
    ((first.run before world).1.shouldTrace frame.filename (first.run before world).2).1 =
      .ok (some disposition) ∧
    first.ClaimedIn (before ++ [.line frame]) world frame.filename entry disposition ∧
    (first.run before world).1.measuredStep frame (first.run before world).2 = some step ∧
    step.plugin = disposition.plugin ∧ sameSource step.source source
  /-- It gives the source file its credit. -/
  credits : (first.run (before ++ [.line frame]) world).1.data.tracer? source = some entry.name

theorem ClaimedIn.plugin_eq {first : Collector σ} {events : List Event} {world : σ}
    {filename : Path} {entry : RegistryEntry σ} {disposition : Disposition σ}
    (h : first.ClaimedIn events world filename entry disposition) :
    disposition.plugin = entry.name := by
  obtain ⟨_, _, _, _, _, hclaim⟩ := h
  exact hclaim.plugin_eq

theorem ClaimedIn.mem {first : Collector σ} {events : List Event} {world : σ} {filename : Path}
    {entry : RegistryEntry σ} {disposition : Disposition σ}
    (h : first.ClaimedIn events world filename entry disposition) :
    entry ∈ first.plugins.withCapability .fileTracer := by
  obtain ⟨_, _, _, _, _, hclaim⟩ := h
  exact hclaim.mem

/-- Every credit goes back to a line that was the first to record, and to the entry
that claimed its file. -/
theorem exists_firstRecords {source : Path} {name : String}
    (h : ((start host plugins branch).run events world).1.data.tracer? source = some name) :
    ∃ before frame entry,
      (start host plugins branch).FirstRecords events world source before frame entry ∧
        entry.name = name := by
  rw [tracer?_run] at h
  obtain ⟨earlier, signal, later, hsignals, hcredit, hfresh⟩ := List.findSome?_eq_some_iff.1 h
  obtain ⟨before, event, rest, hevents, hbefore, hsignal⟩ := exists_event_of_signals hsignals
  have hnone : ((start host plugins branch).run before world).1.data.tracer? source = none := by
    rw [tracer?_run, hbefore]
    exact List.findSome?_eq_none_iff.2 hfresh
  cases event with
  | call frame =>
    rw [← hsignal] at hcredit
    cases hcredit
  | ret frame =>
    rw [← hsignal] at hcredit
    cases hcredit
  | line frame =>
    cases hstep : ((start host plugins branch).run before world).1.measuredStep frame
      ((start host plugins branch).run before world).2 with
    | none =>
      rw [← hsignal, Collector.signal, hstep] at hcredit
      cases hcredit
    | some step =>
      rw [← hsignal, Collector.signal, hstep, Signal.credit?] at hcredit
      split at hcredit
      · next hsame =>
        obtain ⟨disposition, asked, world₁, file, _, range, _, hasked, _, _, _, hmade⟩ :=
          (measuredStep_eq_some_iff _).1 hstep
        have hoffered := congrArg Prod.fst hasked
        obtain ⟨entry, hclaim⟩ := claimedIn_of_shouldTrace hoffered
        have hplugin : step.plugin = disposition.plugin := by rw [hmade]
        have hname : step.plugin = entry.name := hplugin.trans hclaim.plugin_eq
        refine ⟨before, frame, entry, ?_, hname.symm.trans (Option.some.inj hcredit)⟩
        constructor
        · rw [hevents]
          exact ⟨rest, by rw [List.append_assoc, List.singleton_append]⟩
        · exact hnone
        · exact ⟨disposition, step, hoffered, hclaim, hstep, hplugin, hsame⟩
        · rw [tracer?_run, signals_append, List.findSome?_append, ← tracer?_run, hnone,
            Option.none_or]
          simp only [signals, Collector.signal, hstep, List.findSome?_cons, Signal.credit?,
            if_pos hsame, hname]
      · cases hcredit

/-- Every file that a run recorded something for is credited to a registered file
tracer: the one that claimed the file of the line that was the first to record.
Its name gets the reporter of that object and no other object is asked, now and
after further registrations. The reporter's own answer is all that can go wrong:
the name is never unknown. -/
theorem recorded_files_are_routed (host : Host) (registrations : List (Registration σ))
    (branch : Bool) (events : List Event) (world : σ) :
    let plugins := (∅ : Registry σ).registerEach registrations
    let first := start host plugins branch
    let data := (first.run events world).1.data
    (∀ source ∈ data.measuredFiles, ∃ name, data.tracer? source = some name) ∧
    ∀ source name, data.tracer? source = some name →
      ∃ entry ∈ plugins.withCapability .fileTracer, entry.name = name ∧
        (∃ r ∈ registrations, r.capability = .fileTracer ∧
          r.plugin.identity = entry.plugin.identity) ∧
        (∃ before frame, first.FirstRecords events world source before frame entry) ∧
        ∀ more later,
          let plugins := plugins.registerEach more
          plugins.fileReporter name source later = entry.report source later ∧
          (∀ unknown, (plugins.fileReporter name source later).1 ≠
            .error (.unknownPlugin unknown)) ∧
          (∀ calls, (plugins.recorded.fileReporter name source ⟨later, calls⟩).2.calls =
            calls ++ [.fileReporter entry.plugin.identity source]) ∧
          ∀ other ∈ plugins.entries, other.plugin.identity = entry.plugin.identity →
            other = entry := by
  intro plugins first data
  constructor
  · intro source hsource
    exact Option.isSome_iff_exists.1 (CoverageData.isSome_tracer?_of_mem hsource)
  · intro source name hname
    obtain ⟨before, frame, entry, hfirst, rfl⟩ := exists_firstRecords hname
    obtain ⟨_, _, _, hclaim, _⟩ := hfirst.measured
    have hlisted : entry ∈ plugins.withCapability .fileTracer := hclaim.mem
    refine ⟨entry, hlisted, rfl, Registry.exists_registration hlisted, ⟨before, frame, hfirst⟩, ?_⟩
    intro more later plugins'
    have hwell : plugins'.WellFormed :=
      (Registry.WellFormed.empty.registerEach registrations).registerEach more
    have hentry : entry ∈ plugins'.entries :=
      (plugins.extends_registerEach more).entries.subset
        (Registry.mem_entries_of_mem_withCapability hlisted)
    have hreport : plugins'.fileReporter entry.name source = entry.report source :=
      Registry.fileReporter_eq_report hwell hentry source
    refine ⟨congrFun hreport later, ?_, ?_, ?_⟩
    · intro unknown
      rw [hreport]
      exact entry.report_ne_unknownPlugin source later unknown
    · intro calls
      have hasked := plugins'.fileReporter_recorded entry.name source ⟨later, calls⟩
      rw [hwell.get?_of_mem hentry] at hasked
      exact hasked.calls_eq
    · intro other hother hidentity
      exact hwell.eq_of_identity hother hentry hidentity

end Collector

end Coverage
