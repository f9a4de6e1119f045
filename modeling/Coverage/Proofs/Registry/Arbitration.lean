/-
# Who answers for a registry

The plug-in that claims a file is the first of the file tracers that does: those
before it were asked and declined, and those after it were not asked. The plug-in
that reports on a file is the one under the recorded name, and in a well-formed
registry that is one object, whatever is registered later.
-/
import Coverage.Registry.Arbitration
import Coverage.Proofs.Registry.Registration

namespace Coverage

variable {σ α : Type}

namespace Registry

/-- The first answer comes from an entry that answers after all before it declined. -/
theorem firstAnswer_eq_some_iff {name : HookName} {ask : Plugin σ → Hook σ (Option α)}
    {entries : List (RegistryEntry σ)} {world world' : σ} {winner : String} {answer : α} :
    firstAnswer name ask entries world = (.ok (some (winner, answer)), world') ↔
      ∃ declined entry others between, entries = declined ++ entry :: others ∧
        firstAnswer name ask declined world = (.ok none, between) ∧
        ask entry.plugin between = (.ok (some answer), world') ∧ winner = entry.name := by
  induction entries generalizing world with
  | nil =>
    constructor
    · intro h
      cases h
    · intro h
      obtain ⟨declined, entry, others, between, hsplit, -⟩ := h
      simp at hsplit
  | cons first rest ih =>
    rw [firstAnswer, Hook.named]
    constructor
    · intro h
      rcases hasked : ask first.plugin world with ⟨cause | _ | answered, after⟩ <;>
        simp only [hasked] at h
      · cases h
      · obtain ⟨declined, entry, others, between, hsplit, hdeclined, hanswer⟩ := ih.1 h
        refine ⟨first :: declined, entry, others, between, by rw [hsplit, List.cons_append], ?_,
          hanswer⟩
        simp only [firstAnswer, Hook.named, hasked, hdeclined]
      · cases h
        exact ⟨[], first, rest, world, rfl, rfl, hasked, rfl⟩
    · intro h
      obtain ⟨declined, entry, others, between, hsplit, hdeclined, hanswer, hwinner⟩ := h
      cases declined with
      | nil =>
        cases hsplit
        cases hdeclined
        simp only [hanswer, hwinner]
      | cons asked declined =>
        cases hsplit
        rcases hasked : ask first.plugin world with ⟨cause | _ | answered, after⟩ <;>
          simp only [firstAnswer, Hook.named, hasked] at hdeclined ⊢
        · cases hdeclined
        · exact ih.2 ⟨declined, entry, others, between, rfl, hdeclined, hanswer, hwinner⟩
        · cases hdeclined

/-- An entry claims a file: the file tracers before it decline, and its own tracer
makes the disposition. -/
def Claims (registry : Registry σ) (host : Host) (filename : Path) (world : σ)
    (entry : RegistryEntry σ) (disposition : Disposition σ) : Prop :=
  ∃ declined others between after tracer,
    registry.withCapability .fileTracer = declined ++ entry :: others ∧
    firstAnswer .fileTracer (·.fileTracer filename) declined world = (.ok none, between) ∧
    entry.plugin.fileTracer filename between = (.ok (some tracer), after) ∧
    disposition = (Disposition.ofClaim host filename entry.name tracer after).1

namespace Claims

variable {registry : Registry σ} {host : Host} {filename : Path} {world : σ}
  {entry : RegistryEntry σ} {disposition : Disposition σ}

theorem mem (h : registry.Claims host filename world entry disposition) :
    entry ∈ registry.withCapability .fileTracer := by
  obtain ⟨declined, others, _, _, _, hsplit, -⟩ := h
  rw [hsplit]
  exact List.mem_append_right _ List.mem_cons_self

theorem plugin_eq (h : registry.Claims host filename world entry disposition) :
    disposition.plugin = entry.name := by
  obtain ⟨_, _, _, _, _, _, _, _, rfl⟩ := h
  rfl

end Claims

/-- A file gets a disposition exactly by a claim. -/
theorem fileTracer_eq_some_iff {registry : Registry σ} {host : Host} {filename : Path}
    {world : σ} {disposition : Disposition σ} :
    (registry.fileTracer host filename world).1 = .ok (some disposition) ↔
      ∃ entry, registry.Claims host filename world entry disposition := by
  rw [fileTracer]
  constructor
  · intro h
    rcases hanswer : firstAnswer .fileTracer (·.fileTracer filename)
      (registry.withCapability .fileTracer) world with ⟨cause | _ | ⟨name, tracer⟩, after⟩ <;>
      simp only [hanswer] at h
    · cases h
    · cases h
    · obtain ⟨declined, entry, others, between, hsplit, hdeclined, hclaimed, rfl⟩ :=
        firstAnswer_eq_some_iff.1 hanswer
      exact ⟨entry, declined, others, between, after, tracer, hsplit, hdeclined, hclaimed,
        (Option.some.inj (Except.ok.inj h)).symm⟩
  · intro h
    obtain ⟨entry, declined, others, between, after, tracer, hsplit, hdeclined, hclaimed, rfl⟩ := h
    have hanswer := firstAnswer_eq_some_iff.2
      ⟨declined, entry, others, between, hsplit, hdeclined, hclaimed, rfl⟩
    rw [hanswer]

end Registry

/-- What comes of asking an entry for its reporter on a file. -/
def RegistryEntry.report (entry : RegistryEntry σ) (filename : Path) : Hook σ ReporterChoice :=
  fun world =>
    match entry.plugin.fileReporter filename world with
    | (.ok (some choice), world) => (.ok choice, world)
    | (.ok none, world) => (.error (.missingReporter entry.name filename), world)
    | (.error cause, world) => (.error (.hook entry.name .fileReporter cause), world)

namespace RegistryEntry

theorem report_ne_unknownPlugin (entry : RegistryEntry σ) (filename : Path) (world : σ)
    (name : String) : (entry.report filename world).1 ≠ .error (.unknownPlugin name) := by
  rw [report]
  rcases entry.plugin.fileReporter filename world with ⟨_ | _ | _, _⟩ <;> simp

end RegistryEntry

namespace Registry

/-- The name of an entry gets the reporter of that entry. -/
theorem fileReporter_eq_report {registry : Registry σ} (h : registry.WellFormed)
    {entry : RegistryEntry σ} (hentry : entry ∈ registry.entries) (filename : Path) :
    registry.fileReporter entry.name filename = entry.report filename := by
  funext world
  rw [fileReporter, h.get?_of_mem hentry, RegistryEntry.report]
  dsimp only
  rw [Hook.named]
  rcases entry.plugin.fileReporter filename world with ⟨_ | _ | _, _⟩ <;> rfl

end Registry

end Coverage
