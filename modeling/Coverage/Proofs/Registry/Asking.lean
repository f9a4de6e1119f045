/-
# What a registry asks

`Registry.recorded` is a registry whose plug-ins keep a record of their calls. It
answers as the registry does, and leaves the world as the registry leaves it; what
it adds to the record is the list of questions that were asked. So the record is
a faithful account of who was asked what, for plug-ins with any memory.

`Registry.asked` says who is asked: all up to the first one who answers or fails. A
file that is claimed is asked about twice more, by the questions to its tracer that
make the disposition.
-/
import Coverage.Plugin.Recorded
import Coverage.Proofs.Registry.Arbitration

namespace Coverage

variable {σ α β : Type}

/-- A question to recorded plug-ins comes out as the plain one, and leaves a record
of calls. -/
inductive Mirrors (R : α → β → Prop) (calls : List Call) :
    Except Failure α × σ → Except Failure β × Recorded σ → Prop
  | ok {a : α} {b : β} {world : σ} (answer : R a b) :
    Mirrors R calls (.ok a, world) (.ok b, ⟨world, calls⟩)
  | error {failure : Failure} {world : σ} :
    Mirrors R calls (.error failure, world) (.error failure, ⟨world, calls⟩)

theorem Mirrors.imp {R S : α → β → Prop} {calls : List Call} {plain : Except Failure α × σ}
    {told : Except Failure β × Recorded σ} (h : Mirrors R calls plain told)
    (himp : ∀ a b, R a b → S a b) : Mirrors S calls plain told := by
  cases h with
  | ok answer => exact .ok (himp _ _ answer)
  | error => exact .error

/-- Both leave the same world. -/
theorem Mirrors.world_eq {R : α → β → Prop} {calls : List Call} {plain : Except Failure α × σ}
    {told : Except Failure β × Recorded σ} (h : Mirrors R calls plain told) :
    told.2.world = plain.2 := by
  cases h <;> rfl

theorem Mirrors.calls_eq {R : α → β → Prop} {calls : List Call} {plain : Except Failure α × σ}
    {told : Except Failure β × Recorded σ} (h : Mirrors R calls plain told) :
    told.2.calls = calls := by
  cases h <;> rfl

/-- A failure is mirrored by the same failure. -/
theorem Mirrors.eq_of_error {R : α → β → Prop} {calls : List Call} {failure : Failure} {world : σ}
    {told : Except Failure β × Recorded σ} (h : Mirrors R calls (.error failure, world) told) :
    told = (.error failure, ⟨world, calls⟩) := by
  cases h
  rfl

/-- No answer is mirrored by no answer. -/
theorem Mirrors.eq_of_none {R : α → β → Prop} {calls : List Call} {world : σ}
    {told : Except Failure (Option β) × Recorded σ}
    (h : Mirrors (Option.Rel R) calls (.ok none, world) told) :
    told = (.ok none, ⟨world, calls⟩) := by
  cases h with
  | ok answer =>
    cases answer
    rfl

namespace Hook

theorem mirrors_named {R : α → β → Prop} {calls : List Call} {hook : Hook σ α}
    {told : Hook (Recorded σ) β} {record : Recorded σ} (plugin : String) (name : HookName)
    (h : Mirrors R calls (hook record.world) (told record)) :
    Mirrors R calls (named plugin name hook record.world) (named plugin name told record) := by
  rw [named, named]
  generalize hook record.world = plain at h ⊢
  generalize told record = outcome at h ⊢
  cases h with
  | ok answer => exact .ok answer
  | error => exact .error

/-- A recorded hook adds its call. -/
theorem mirrors_recorded (hook : Hook σ α) (call : Call) (record : Recorded σ) :
    Mirrors Eq (record.calls ++ [call]) (hook record.world) (hook.recorded call record) := by
  rw [recorded]
  rcases hook record.world with ⟨_ | _, _⟩
  · exact .error
  · exact .ok rfl

end Hook

namespace Call

/-- Whether a context switcher was asked. -/
def IsSwitching : Call → Prop
  | dynamicContext .. => True
  | _ => False

/-- Whether a file tracer, or a tracer that it gave, was asked. -/
def IsTracing : Call → Prop
  | fileTracer .. | sourceFilename .. | hasDynamicSource .. | dynamicSource .. | lineRange .. => True
  | _ => False

theorem IsTracing.not_isSwitching {call : Call} (h : call.IsTracing) : ¬ call.IsSwitching := by
  cases call <;> simp_all [IsTracing, IsSwitching]

end Call

/-- The same entry with a plug-in that keeps a record. -/
def RegistryEntry.recorded (entry : RegistryEntry σ) : RegistryEntry (Recorded σ) :=
  ⟨entry.name, entry.plugin.recorded⟩

/-- A disposition whose tracer writes its calls down as those of a plug-in. -/
def Disposition.recorded (disposition : Disposition σ) (identity : String) :
    Disposition (Recorded σ) :=
  { executedFilename := disposition.executedFilename
    sourceFilename := disposition.sourceFilename
    plugin := disposition.plugin
    hasDynamicSource := disposition.hasDynamicSource
    tracer := disposition.tracer.recorded identity }

namespace Registry

/-- The same registry with plug-ins that keep a record. -/
def recorded (registry : Registry σ) : Registry (Recorded σ) where
  entries := registry.entries.map RegistryEntry.recorded
  fileTracers := registry.fileTracers
  configurers := registry.configurers
  contextSwitchers := registry.contextSwitchers

theorem withCapability_recorded (registry : Registry σ) (capability : Capability) :
    registry.recorded.withCapability capability =
      (registry.withCapability capability).map RegistryEntry.recorded := by
  have hpositions : registry.recorded.positions capability = registry.positions capability := by
    cases capability <;> rfl
  rw [withCapability, withCapability, hpositions, List.map_filterMap]
  congr 1
  funext i
  rw [recorded, List.getElem?_map]

theorem get?_recorded (registry : Registry σ) (name : String) :
    registry.recorded.get? name = (registry.get? name).map Plugin.recorded := by
  rw [get?, get?, recorded, List.find?_map, Option.map_map, Option.map_map]
  rfl

theorem hasContextSwitchers_of_ne_nil (registry : Registry σ)
    (h : registry.withCapability .dynamicContext ≠ []) : registry.hasContextSwitchers = true := by
  cases hpositions : registry.contextSwitchers with
  | nil => exact absurd (by rw [withCapability, positions, hpositions, List.filterMap_nil]) h
  | cons i positions => rw [hasContextSwitchers, hpositions, List.isEmpty_cons, Bool.not_false]

/-! ## Arbitration -/

/-- Those of a list who are asked: all up to the first one who answers or fails. -/
def asked (ask : Plugin σ → Hook σ (Option α)) :
    List (RegistryEntry σ) → σ → List (RegistryEntry σ)
  | [], _ => []
  | entry :: rest, world =>
    entry ::
      match ask entry.plugin world with
      | (.ok none, world) => asked ask rest world
      | _ => []

section Asked

variable {name : HookName} {ask : Plugin σ → Hook σ (Option α)}
  {entries declined others : List (RegistryEntry σ)} {entry : RegistryEntry σ}
  {world between after : σ}

theorem asked_ne_nil (h : entries ≠ []) : asked ask entries world ≠ [] := by
  cases entries with
  | nil => exact absurd rfl h
  | cons entry entries => exact List.cons_ne_nil _ _

/-- Those who decline are asked, and after them the others. -/
theorem asked_append (h : firstAnswer name ask declined world = (.ok none, between)) :
    asked ask (declined ++ others) world = declined ++ asked ask others between := by
  induction declined generalizing world with
  | nil =>
    cases h
    rfl
  | cons first declined ih =>
    rw [firstAnswer, Hook.named] at h
    rw [List.cons_append, asked, List.cons_append]
    rcases hasked : ask first.plugin world with ⟨_ | _ | _, later⟩
    all_goals simp only [hasked, Prod.mk.injEq, reduceCtorEq, false_and, Except.ok.injEq] at h
    exact congrArg (first :: ·) (ih h)

/-- Nobody is asked after the one who answers. -/
theorem asked_eq (h : firstAnswer name ask declined world = (.ok none, between)) {answer : α}
    (hanswer : ask entry.plugin between = (.ok (some answer), after)) :
    asked ask (declined ++ entry :: others) world = declined ++ [entry] := by
  rw [asked_append h, asked, hanswer]

end Asked

section FirstAnswer

variable (ask : Plugin σ → Hook σ (Option α))
  (askRecorded : Plugin (Recorded σ) → Hook (Recorded σ) (Option β))
  (call : Plugin σ → Call) (R : α → β → Prop)

/-- Recorded plug-ins come to the same answer, and the calls that they note are those of
the ones who are asked. -/
theorem firstAnswer_recorded (name : HookName)
    (hask : ∀ plugin record, Mirrors (Option.Rel R) (record.calls ++ [call plugin])
      (ask plugin record.world) (askRecorded plugin.recorded record))
    (entries : List (RegistryEntry σ)) (record : Recorded σ) :
    Mirrors (Option.Rel fun a b => R a.2 b.2)
      (record.calls ++ (asked ask entries record.world).map fun entry => call entry.plugin)
      (firstAnswer name ask entries record.world)
      (firstAnswer name askRecorded (entries.map RegistryEntry.recorded) record) := by
  induction entries generalizing record with
  | nil =>
    rw [asked, List.map_nil, List.append_nil]
    exact .ok Option.Rel.none
  | cons entry entries ih =>
    have hentry := hask entry.plugin record
    rw [List.map_cons, firstAnswer, firstAnswer, RegistryEntry.recorded, Hook.named, Hook.named,
      asked, List.map_cons, List.append_cons]
    generalize ask entry.plugin record.world = plain at hentry ⊢
    generalize askRecorded entry.plugin.recorded record = told at hentry ⊢
    cases hentry with
    | error =>
      simp only [List.map_nil, List.append_nil]
      exact .error
    | @ok _ _ world answer =>
      cases answer with
      | some answer =>
        simp only [List.map_nil, List.append_nil]
        exact .ok (Option.Rel.some answer)
      | none => exact ih ⟨world, record.calls ++ [call entry.plugin]⟩

end FirstAnswer

/-- The calls that offer a frame to the context switchers. -/
def dynamicContextCalls (registry : Registry σ) (frame : Frame) (world : σ) : List Call :=
  (asked (·.dynamicContext frame) (registry.withCapability .dynamicContext) world).map
    fun entry => .dynamicContext entry.plugin.identity frame

/-- The calls that offer a file to the file tracers. -/
def fileTracerCalls (registry : Registry σ) (filename : Path) (world : σ) : List Call :=
  (asked (·.fileTracer filename) (registry.withCapability .fileTracer) world).map
    fun entry => .fileTracer entry.plugin.identity filename

theorem dynamicContextCalls_ne_nil {registry : Registry σ}
    (h : registry.withCapability .dynamicContext ≠ []) (frame : Frame) (world : σ) :
    registry.dynamicContextCalls frame world ≠ [] := by
  rw [dynamicContextCalls, Ne, List.map_eq_nil_iff]
  exact asked_ne_nil h

theorem dynamicContextCalls_eq_nil {registry : Registry σ}
    (h : registry.withCapability .dynamicContext = []) (frame : Frame) (world : σ) :
    registry.dynamicContextCalls frame world = [] := by
  rw [dynamicContextCalls, h]
  rfl

/-- Offering a frame calls context switchers only. -/
theorem isSwitching_of_mem {registry : Registry σ} {frame : Frame} {world : σ} {call : Call}
    (h : call ∈ registry.dynamicContextCalls frame world) : call.IsSwitching := by
  obtain ⟨entry, -, rfl⟩ := List.mem_map.1 h
  trivial

/-- Offering a file calls file tracers only, with the file. -/
theorem exists_eq_fileTracer_of_mem {registry : Registry σ} {filename : Path} {world : σ}
    {call : Call} (h : call ∈ registry.fileTracerCalls filename world) :
    ∃ plugin, call = .fileTracer plugin filename := by
  obtain ⟨entry, -, rfl⟩ := List.mem_map.1 h
  exact ⟨_, rfl⟩

/-- What the context switchers are asked of a frame. -/
theorem dynamicContext_recorded (registry : Registry σ) (frame : Frame) (record : Recorded σ) :
    Mirrors Eq (record.calls ++ registry.dynamicContextCalls frame record.world)
      (registry.dynamicContext frame record.world)
      (registry.recorded.dynamicContext frame record) := by
  have hask : ∀ (plugin : Plugin σ) (record : Recorded σ),
      Mirrors (Option.Rel Eq) (record.calls ++ [.dynamicContext plugin.identity frame])
        (plugin.dynamicContext frame record.world)
        (plugin.recorded.dynamicContext frame record) := fun plugin record =>
    (Hook.mirrors_recorded (plugin.dynamicContext frame) _ record).imp fun a b heq => by
      subst heq
      cases a with
      | none => exact .none
      | some a => exact .some rfl
  have hanswer := firstAnswer_recorded (·.dynamicContext frame) (·.dynamicContext frame)
    (fun plugin => .dynamicContext plugin.identity frame) Eq .dynamicContext hask
    (registry.withCapability .dynamicContext) record
  rw [dynamicContext, dynamicContext, withCapability_recorded, dynamicContextCalls]
  generalize firstAnswer .dynamicContext _ _ record.world = plain at hanswer ⊢
  generalize firstAnswer .dynamicContext _ _ record = told at hanswer ⊢
  cases hanswer with
  | error => exact .error
  | ok answer =>
    cases answer with
    | none => exact .ok rfl
    | some heq => exact .ok (congrArg some heq)

end Registry

/-! ## Claims -/

/-- A plug-in's claim of a file, and the disposition that comes of it. -/
structure Claim (σ : Type) where
  entry : RegistryEntry σ
  disposition : Disposition σ

namespace Claim

/-- The plug-in object that claims. -/
def identity (claim : Claim σ) : String := claim.entry.plugin.identity

/-- The disposition of a claim by the same plug-in when it keeps a record. -/
def recorded (claim : Claim σ) : Disposition (Recorded σ) :=
  claim.disposition.recorded claim.identity

/-- The calls that make the disposition of a claim. -/
def calls (claim : Claim σ) : List Call :=
  [.hasDynamicSource claim.identity, .sourceFilename claim.identity]

theorem isTracing_of_mem_calls (claim : Claim σ) {call : Call} (h : call ∈ claim.calls) :
    call.IsTracing := by
  rw [calls, List.mem_cons, List.mem_singleton] at h
  rcases h with rfl | rfl <;> trivial

end Claim

namespace Registry

/-- What offering a file finds out: that nobody claims it, or a claim. -/
def Answers (registry : Registry σ) (host : Host) (filename : Path) (world : σ) :
    Option (Claim σ) → Prop
  | none => (registry.fileTracer host filename world).1 = .ok none
  | some claim => registry.Claims host filename world claim.entry claim.disposition

section Answers

variable {registry : Registry σ} {host : Host} {filename : Path}

theorem Answers.fileTracer_eq {world : σ} {answer : Option (Claim σ)}
    (h : registry.Answers host filename world answer) :
    (registry.fileTracer host filename world).1 = .ok (answer.map (·.disposition)) := by
  cases answer with
  | none => exact h
  | some claim => exact fileTracer_eq_some_iff.2 ⟨claim.entry, h⟩

/-- A claim ends the offer. -/
theorem Claims.asked_eq {world : σ} {entry : RegistryEntry σ} {disposition : Disposition σ}
    (h : registry.Claims host filename world entry disposition) :
    (asked (·.fileTracer filename) (registry.withCapability .fileTracer) world).getLast? =
      some entry := by
  obtain ⟨declined, others, between, after, tracer, hsplit, hdeclined, hclaimed, -⟩ := h
  rw [hsplit, Registry.asked_eq hdeclined hclaimed, List.getLast?_concat]

/-- Offering a file finds out one thing. -/
theorem Answers.unique {world : σ} {answer other : Option (Claim σ)}
    (h : registry.Answers host filename world answer)
    (hother : registry.Answers host filename world other) : answer = other := by
  have heq : answer.map (·.disposition) = other.map (·.disposition) :=
    Except.ok.inj (h.fileTracer_eq.symm.trans hother.fileTracer_eq)
  rcases answer with _ | ⟨entry, disposition⟩
  · cases other with
    | none => rfl
    | some other => cases heq
  · rcases other with _ | ⟨winner, _⟩
    · cases heq
    · obtain rfl := Option.some.inj heq
      have hentry : some entry = some winner :=
        (Claims.asked_eq h).symm.trans (Claims.asked_eq hother)
      rw [Option.some.inj hentry]

/-- The hook of a recorded plug-in that claims files. -/
theorem fileTracer_recorded_plugin (plugin : Plugin σ) (filename : Path) (record : Recorded σ) :
    plugin.recorded.fileTracer filename record =
      ((plugin.fileTracer filename record.world).1.map (·.map (Tracer.recorded plugin.identity)),
        ⟨(plugin.fileTracer filename record.world).2,
          record.calls ++ [.fileTracer plugin.identity filename]⟩) := rfl

theorem firstAnswer_fileTracer_recorded (filename : Path) (entries : List (RegistryEntry σ))
    (record : Recorded σ) :
    Mirrors (Option.Rel fun _ _ => True)
      (record.calls ++ (asked (·.fileTracer filename) entries record.world).map
        fun entry => .fileTracer entry.plugin.identity filename)
      (firstAnswer .fileTracer (·.fileTracer filename) entries record.world)
      (firstAnswer .fileTracer (·.fileTracer filename) (entries.map RegistryEntry.recorded)
        record) := by
  apply firstAnswer_recorded (·.fileTracer filename) (·.fileTracer filename)
    (fun plugin => .fileTracer plugin.identity filename) (fun _ _ => True)
  intro plugin record
  rw [fileTracer_recorded_plugin]
  rcases plugin.fileTracer filename record.world with ⟨_ | _ | _, _⟩
  · exact .error
  · exact .ok Option.Rel.none
  · exact .ok (Option.Rel.some trivial)

/-- A claim by a recorded plug-in is noted with the offer before it, and with what was
asked to make the disposition. -/
theorem Claims.fileTracer_recorded {record : Recorded σ} {claim : Claim σ}
    (h : registry.Claims host filename record.world claim.entry claim.disposition) :
    registry.recorded.fileTracer host filename record =
      (.ok (some claim.recorded), ⟨(registry.fileTracer host filename record.world).2,
        record.calls ++ registry.fileTracerCalls filename record.world ++ claim.calls⟩) := by
  obtain ⟨entry, disposition⟩ := claim
  dsimp only at h
  obtain ⟨declined, others, between, after, tracer, hsplit, hdeclined, hclaimed, rfl⟩ := h
  have hplain : firstAnswer .fileTracer (·.fileTracer filename)
      (registry.withCapability .fileTracer) record.world =
        (.ok (some (entry.name, tracer)), after) :=
    firstAnswer_eq_some_iff.2 ⟨declined, entry, others, between, hsplit, hdeclined, hclaimed, rfl⟩
  have hcalls : registry.fileTracerCalls filename record.world =
      (declined.map fun entry => .fileTracer entry.plugin.identity filename) ++
        [.fileTracer entry.plugin.identity filename] := by
    rw [fileTracerCalls, hsplit, Registry.asked_eq hdeclined hclaimed, List.map_append]
    rfl
  have hpassed : firstAnswer .fileTracer (·.fileTracer filename)
      (declined.map RegistryEntry.recorded) record =
        (.ok none, ⟨between, record.calls ++
          declined.map fun entry => .fileTracer entry.plugin.identity filename⟩) := by
    have htold := firstAnswer_fileTracer_recorded filename declined record
    have hall : asked (·.fileTracer filename) declined record.world = declined := by
      have happend : asked (·.fileTracer filename) (declined ++ []) record.world = declined ++ [] :=
        asked_append hdeclined
      rwa [List.append_nil] at happend
    rw [hall, hdeclined] at htold
    exact htold.eq_of_none
  have htold : firstAnswer .fileTracer (·.fileTracer filename)
      (registry.recorded.withCapability .fileTracer) record =
        (.ok (some (entry.name, tracer.recorded entry.plugin.identity)),
          ⟨after, record.calls ++ registry.fileTracerCalls filename record.world⟩) := by
    apply firstAnswer_eq_some_iff.2
    refine ⟨declined.map RegistryEntry.recorded, entry.recorded,
      others.map RegistryEntry.recorded, _, ?_, hpassed, ?_, rfl⟩
    · rw [withCapability_recorded, hsplit, List.map_append, List.map_cons]
    · rw [RegistryEntry.recorded, fileTracer_recorded_plugin, hclaimed, hcalls,
        List.append_assoc]
      rfl
  rw [fileTracer, fileTracer, htold, hplain]
  simp only [Disposition.ofClaim, Tracer.recorded, List.append_assoc]
  rfl

/-- A failed offer is noted, and so is one that finds something out. -/
theorem fileTracer_recorded (registry : Registry σ) (host : Host) (filename : Path)
    (record : Recorded σ) :
    (∃ failure, (registry.fileTracer host filename record.world).1 = .error failure ∧
      registry.recorded.fileTracer host filename record =
        (.error failure, ⟨(registry.fileTracer host filename record.world).2,
          record.calls ++ registry.fileTracerCalls filename record.world⟩)) ∨
    ∃ answer : Option (Claim σ), registry.Answers host filename record.world answer ∧
      registry.recorded.fileTracer host filename record =
        (.ok (answer.map Claim.recorded), ⟨(registry.fileTracer host filename record.world).2,
          record.calls ++ registry.fileTracerCalls filename record.world ++
            answer.elim [] Claim.calls⟩) := by
  have hoffered := firstAnswer_fileTracer_recorded filename
    (registry.withCapability .fileTracer) record
  rw [← withCapability_recorded] at hoffered
  rcases hfirst : firstAnswer .fileTracer (·.fileTracer filename)
    (registry.withCapability .fileTracer) record.world with ⟨failure | _ | ⟨winner, tracer⟩, after⟩
  · rw [hfirst] at hoffered
    have htold := hoffered.eq_of_error
    refine .inl ⟨failure, ?_, ?_⟩
    · rw [fileTracer, hfirst]
    · rw [fileTracer, fileTracer, hfirst, htold]
      rfl
  · rw [hfirst] at hoffered
    have htold := hoffered.eq_of_none
    refine .inr ⟨none, ?_, ?_⟩
    · rw [Answers, fileTracer, hfirst]
    · rw [fileTracer, fileTracer, hfirst, htold, Option.elim_none, List.append_nil]
      rfl
  · obtain ⟨entry, hclaims⟩ : ∃ entry, registry.Claims host filename record.world entry
        (Disposition.ofClaim host filename winner tracer after).1 := by
      apply fileTracer_eq_some_iff.1
      rw [fileTracer, hfirst]
    exact .inr ⟨some ⟨entry, _⟩, hclaims, Claims.fileTracer_recorded hclaims⟩

end Answers

/-- The plug-in with the name is asked for its reporter, and nobody else is. -/
theorem fileReporter_recorded (registry : Registry σ) (name : String) (filename : Path)
    (record : Recorded σ) :
    Mirrors Eq
      (record.calls ++ ((registry.get? name).map fun plugin =>
        Call.fileReporter plugin.identity filename).toList)
      (registry.fileReporter name filename record.world)
      (registry.recorded.fileReporter name filename record) := by
  rw [fileReporter, fileReporter, get?_recorded]
  cases registry.get? name with
  | none =>
    rw [Option.map_none, Option.map_none, Option.toList_none, List.append_nil]
    exact .error
  | some plugin =>
    have hasked := Hook.mirrors_named name .fileReporter (Hook.mirrors_recorded
      (plugin.fileReporter filename) (.fileReporter plugin.identity filename) record)
    simp only [Option.map_some, Option.toList_some, Plugin.recorded]
    generalize Hook.named name .fileReporter _ record.world = plain at hasked ⊢
    generalize Hook.named name .fileReporter _ record = told at hasked ⊢
    cases hasked with
    | error => exact .error
    | @ok answer _ _ heq =>
      subst heq
      cases answer with
      | none => exact .error
      | some choice => exact .ok rfl

end Registry

end Coverage
