/-
# Steady plug-ins

A plug-in is steady when each of its answers is a function of what it was asked: its
hooks may change the world, and their answers do not depend on it. What a registry of
steady plug-ins finds out about a file or a frame is then a function of the file or
the frame, and so is what a disposition that it makes finds out about a line.
-/
import Coverage.Proofs.Collector.Signal
import Coverage.Proofs.Registry.Arbitration

namespace Coverage

variable {σ α : Type}

/-- The answer of a hook does not depend on the world. -/
def Hook.Steady (hook : Hook σ α) : Prop :=
  ∀ world world', (hook world).1 = (hook world').1

/-- The answers of a tracer do not depend on the world. -/
structure Tracer.Steady (tracer : Tracer σ) : Prop where
  sourceFilename : ∀ world world',
    (tracer.sourceFilename world).1 = (tracer.sourceFilename world').1
  hasDynamicSource : ∀ world world',
    (tracer.hasDynamicSource world).1 = (tracer.hasDynamicSource world').1
  dynamicSource : ∀ filename frame, (tracer.dynamicSource filename frame).Steady
  lineRange : ∀ frame, (tracer.lineRange frame).Steady

/-- The answers of a plug-in to the questions of a run, and those of the tracers that
it gives, do not depend on the world. -/
structure Plugin.Steady (plugin : Plugin σ) : Prop where
  fileTracer : ∀ filename, (plugin.fileTracer filename).Steady
  tracer : ∀ filename world tracer,
    (plugin.fileTracer filename world).1 = .ok (some tracer) → tracer.Steady
  dynamicContext : ∀ frame, (plugin.dynamicContext frame).Steady

/-- All plug-ins are steady. -/
def Registry.Steady (registry : Registry σ) : Prop :=
  ∀ entry ∈ registry.entries, entry.plugin.Steady

namespace Hook.Steady

variable {hook : Hook σ α}

/-- In two worlds a steady hook fails alike, or answers alike. -/
theorem cases (h : hook.Steady) (world world' : σ) :
    (∃ failure after after', hook world = (.error failure, after) ∧
      hook world' = (.error failure, after')) ∨
    ∃ answer after after', hook world = (.ok answer, after) ∧
      hook world' = (.ok answer, after') := by
  have hanswer := h world world'
  rcases hasked : hook world with ⟨failure | answer, after⟩
  · left
    refine ⟨failure, after, (hook world').2, rfl, ?_⟩
    rw [hasked] at hanswer
    exact Prod.ext hanswer.symm rfl
  · right
    refine ⟨answer, after, (hook world').2, rfl, ?_⟩
    rw [hasked] at hanswer
    exact Prod.ext hanswer.symm rfl

theorem named (h : hook.Steady) (plugin : String) (name : HookName) :
    (Hook.named plugin name hook).Steady := by
  intro world world'
  obtain ⟨_, _, _, hasked, hasked'⟩ | ⟨_, _, _, hasked, hasked'⟩ := h.cases world world'
  all_goals simp only [Hook.named, hasked, hasked']

end Hook.Steady

namespace Registry

/-- The first answer of steady hooks does not depend on the world. -/
theorem steady_firstAnswer {ask : Plugin σ → Hook σ (Option α)} (name : HookName)
    {entries : List (RegistryEntry σ)} (h : ∀ entry ∈ entries, (ask entry.plugin).Steady) :
    Hook.Steady (firstAnswer name ask entries) := by
  induction entries with
  | nil =>
    intro world world'
    rfl
  | cons entry entries ih =>
    obtain ⟨hentry, hentries⟩ := List.forall_mem_cons.1 h
    intro world world'
    rw [firstAnswer, firstAnswer]
    obtain ⟨_, _, _, hasked, hasked'⟩ | ⟨answer, after, after', hasked, hasked'⟩ :=
      (hentry.named entry.name name).cases world world'
    · rw [hasked, hasked']
    · rw [hasked, hasked']
      cases answer with
      | none => exact ih hentries after after'
      | some answer => rfl

namespace Steady

variable {registry : Registry σ} (h : registry.Steady)
include h

theorem of_mem {capability : Capability} {entry : RegistryEntry σ}
    (hentry : entry ∈ registry.withCapability capability) : entry.plugin.Steady :=
  h entry (mem_entries_of_mem_withCapability hentry)

theorem dynamicContext (frame : Frame) : Hook.Steady (registry.dynamicContext frame) := by
  have hfirst : Hook.Steady (firstAnswer .dynamicContext (·.dynamicContext frame)
      (registry.withCapability .dynamicContext)) := by
    apply steady_firstAnswer
    intro entry hentry
    exact (h.of_mem hentry).dynamicContext frame
  intro world world'
  obtain ⟨_, _, _, hasked, hasked'⟩ | ⟨_, _, _, hasked, hasked'⟩ := hfirst.cases world world'
  all_goals simp only [Registry.dynamicContext, hasked, hasked']

/-- The tracer of a disposition that a registry makes is steady. -/
theorem tracer_of_fileTracer {host : Host} {filename : Path} {world : σ}
    {disposition : Disposition σ}
    (hclaimed : (registry.fileTracer host filename world).1 = .ok (some disposition)) :
    disposition.tracer.Steady := by
  obtain ⟨entry, hclaims⟩ := fileTracer_eq_some_iff.1 hclaimed
  have hlisted := hclaims.mem
  obtain ⟨_, _, between, _, tracer, -, -, hanswer, rfl⟩ := hclaims
  exact (h.of_mem hlisted).tracer filename between tracer (congrArg Prod.fst hanswer)

theorem fileTracer (host : Host) (filename : Path) :
    Hook.Steady (registry.fileTracer host filename) := by
  have hfirst : Hook.Steady (firstAnswer .fileTracer (·.fileTracer filename)
      (registry.withCapability .fileTracer)) := by
    apply steady_firstAnswer
    intro entry hentry
    exact (h.of_mem hentry).fileTracer filename
  intro world world'
  obtain ⟨_, _, _, hasked, hasked'⟩ | ⟨answer, after, after', hasked, hasked'⟩ :=
    hfirst.cases world world'
  · simp only [Registry.fileTracer, hasked, hasked']
  · cases answer with
    | none => simp only [Registry.fileTracer, hasked, hasked']
    | some answer =>
      obtain ⟨winner, tracer⟩ := answer
      have htracer : tracer.Steady := by
        obtain ⟨_, entry, _, between, hsplit, -, hanswer, -⟩ := firstAnswer_eq_some_iff.1 hasked
        have hlisted : entry ∈ registry.withCapability .fileTracer := by
          rw [hsplit]
          exact List.mem_append_right _ List.mem_cons_self
        exact (h.of_mem hlisted).tracer filename between tracer (congrArg Prod.fst hanswer)
      simp only [Registry.fileTracer, hasked, hasked', Disposition.ofClaim,
        htracer.hasDynamicSource after after']
      rw [htracer.sourceFilename _ (tracer.hasDynamicSource after').2]

end Steady

end Registry

/-- What is measured of a line with a steady tracer does not depend on the world. -/
theorem Collector.steady_measure {disposition : Disposition σ} (h : disposition.tracer.Steady)
    (host : Host) (frame : Frame) : Hook.Steady (measure host disposition frame) := by
  have hsource : Hook.Steady (disposition.sourceFor host frame) := by
    intro world world'
    rw [Disposition.sourceFor, Disposition.sourceFor]
    split
    · obtain ⟨_, _, _, hasked, hasked'⟩ | ⟨_, _, _, hasked, hasked'⟩ :=
        ((h.dynamicSource disposition.executedFilename frame).named disposition.plugin
          .dynamicSourceFilename).cases world world'
      all_goals rw [hasked, hasked']
    · rfl
  have hrange : Hook.Steady (disposition.lineRange frame) :=
    (h.lineRange frame).named disposition.plugin .lineNumberRange
  intro world world'
  rw [measure, measure]
  obtain ⟨_, _, _, hasked, hasked'⟩ | ⟨source, after, after', hasked, hasked'⟩ :=
    hsource.cases world world'
  · rw [hasked, hasked']
  · rw [hasked, hasked']
    cases source with
    | none => rfl
    | some source =>
      obtain ⟨_, _, _, hranged, hranged'⟩ | ⟨_, _, _, hranged, hranged'⟩ :=
        hrange.cases after after'
      · simp only [hranged, hranged']
      · simp only [hranged, hranged']
        split <;> rfl

end Coverage
