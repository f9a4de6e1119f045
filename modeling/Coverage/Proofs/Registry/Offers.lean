/-
# Who is asked, and whose answer counts

A file is offered to the file tracers and a frame to the context switchers, in the order
in which they were first registered. `Offers` says how an offer ends. Those before the
last one who is asked decline; the last one answers or fails, and nobody after it is
asked. `Collects` says the same of a question to all: everybody is asked, and the answers
are put together under the names of those who gave them, unless one fails.

Both are put together from `InTurn`, plug-ins that answer one after the other without a
failure. A registry with plug-ins that keep a record ends with the calls of exactly those
who are asked, and the registrations alone decide their order.
-/
import Coverage.Proofs.Registry.Asking
import Coverage.Proofs.Registry.Representation

namespace Coverage

variable {σ α : Type}

open Registration (objects)

namespace Registry

/-! ## Answers in turn -/

/-- Plug-ins that answer one after the other, none of which fails. -/
inductive InTurn (ask : Plugin σ → Hook σ α) : List (RegistryEntry σ) → σ → List α → σ → Prop
  | nil {world : σ} : InTurn ask [] world [] world
  | cons {entry : RegistryEntry σ} {rest : List (RegistryEntry σ)} {answer : α} {answers : List α}
      {world world₁ world₂ : σ} :
      ask entry.plugin world = (.ok answer, world₁) → InTurn ask rest world₁ answers world₂ →
      InTurn ask (entry :: rest) world (answer :: answers) world₂

/-- Plug-ins that are asked one after the other and have no answer. -/
def Decline (ask : Plugin σ → Hook σ (Option α)) (entries : List (RegistryEntry σ))
    (world world' : σ) : Prop :=
  ∃ answers, InTurn ask entries world answers world' ∧ ∀ answer ∈ answers, answer = none

namespace Decline

variable {ask : Plugin σ → Hook σ (Option α)} {entry : RegistryEntry σ}
  {entries : List (RegistryEntry σ)} {world world₁ world₂ : σ}

theorem nil : Decline ask [] world world := ⟨[], .nil, fun _ h => absurd h List.not_mem_nil⟩

theorem cons (hfirst : ask entry.plugin world = (.ok none, world₁))
    (hrest : Decline ask entries world₁ world₂) : Decline ask (entry :: entries) world world₂ := by
  obtain ⟨answers, hanswers, hnone⟩ := hrest
  exact ⟨none :: answers, .cons hfirst hanswers, List.forall_mem_cons.2 ⟨rfl, hnone⟩⟩

/-- Those who decline are passed over. -/
theorem firstAnswer_append (h : Decline ask entries world world₁) (name : HookName)
    (others : List (RegistryEntry σ)) :
    firstAnswer name ask (entries ++ others) world = firstAnswer name ask others world₁ := by
  obtain ⟨answers, hanswers, hnone⟩ := h
  induction hanswers with
  | nil => rfl
  | cons hfirst _ ih =>
    obtain ⟨rfl, hrest⟩ := List.forall_mem_cons.1 hnone
    rw [List.cons_append, firstAnswer, Hook.named, hfirst]
    exact ih hrest

theorem firstAnswer_eq (h : Decline ask entries world world₁) (name : HookName) :
    firstAnswer name ask entries world = (.ok none, world₁) := by
  have hall := h.firstAnswer_append name []
  rwa [List.append_nil, firstAnswer] at hall

end Decline

/-! ## Offers -/

/-- How an offer to plug-ins ends: those who are asked, and what comes of it. -/
inductive Offers (name : HookName) (ask : Plugin σ → Hook σ (Option α))
    (entries : List (RegistryEntry σ)) (world : σ) :
    List (RegistryEntry σ) → Except Failure (Option (RegistryEntry σ × α)) → σ → Prop
  /-- Everybody declines. -/
  | declined {world₁ : σ} :
    Decline ask entries world world₁ → Offers name ask entries world entries (.ok none) world₁
  /-- The first one who does not decline answers. -/
  | answered {before after : List (RegistryEntry σ)} {entry : RegistryEntry σ} {answer : α}
      {world₁ world₂ : σ} :
      entries = before ++ entry :: after → Decline ask before world world₁ →
      ask entry.plugin world₁ = (.ok (some answer), world₂) →
      Offers name ask entries world (before ++ [entry]) (.ok (some (entry, answer))) world₂
  /-- The first one who does not decline fails. What it says stands beneath its name. -/
  | failed {before after : List (RegistryEntry σ)} {entry : RegistryEntry σ} {cause : Failure}
      {world₁ world₂ : σ} :
      entries = before ++ entry :: after → Decline ask before world world₁ →
      ask entry.plugin world₁ = (.error cause, world₂) →
      Offers name ask entries world (before ++ [entry]) (.error (.hook entry.name name cause))
        world₂

namespace Offers

variable {name : HookName} {ask : Plugin σ → Hook σ (Option α)}
  {entries asked : List (RegistryEntry σ)} {world world' : σ}
  {outcome : Except Failure (Option (RegistryEntry σ × α))}

theorem firstAnswer_eq (h : Offers name ask entries world asked outcome world') :
    firstAnswer name ask entries world =
      (outcome.map (·.map fun answer => (answer.1.name, answer.2)), world') := by
  cases h with
  | declined hnone => exact hnone.firstAnswer_eq name
  | answered hsplit hnone hanswer =>
    rw [hsplit, hnone.firstAnswer_append, firstAnswer, Hook.named, hanswer]
    rfl
  | failed hsplit hnone hfails =>
    rw [hsplit, hnone.firstAnswer_append, firstAnswer, Hook.named, hfails]
    rfl

theorem asked_eq (h : Offers name ask entries world asked outcome world') :
    Registry.asked ask entries world = asked := by
  cases h with
  | declined hnone =>
    have happend : Registry.asked ask (entries ++ []) world = entries ++ [] :=
      asked_append (hnone.firstAnswer_eq name)
    rwa [List.append_nil] at happend
  | answered hsplit hnone hanswer =>
    rw [hsplit, Registry.asked_eq (hnone.firstAnswer_eq name) hanswer]
  | failed hsplit hnone hfails =>
    rw [hsplit, asked_append (hnone.firstAnswer_eq name), Registry.asked, hfails]

/-- The last one who is asked is the one who answers. -/
theorem getLast?_asked {entry : RegistryEntry σ} {answer : α}
    (h : Offers name ask entries world asked (.ok (some (entry, answer))) world') :
    asked.getLast? = some entry := by
  cases h with
  | answered => exact List.getLast?_concat

end Offers

/-! ## Questions to all -/

/-- Answers of plug-ins, each under the name of who gave it. -/
def signed (entries : List (RegistryEntry σ)) (answers : List (List α)) : List (String × α) :=
  (entries.zip answers).flatMap fun (entry, answer) => answer.map (entry.name, ·)

/-- How a question to all plug-ins ends: those who are asked, and what comes of it. -/
inductive Collects (name : HookName) (ask : Plugin σ → Hook σ (List α))
    (entries : List (RegistryEntry σ)) (world : σ) :
    List (RegistryEntry σ) → Except Failure (List (String × α)) → σ → Prop
  /-- Everybody answers. -/
  | answered {answers : List (List α)} {world₁ : σ} :
    InTurn ask entries world answers world₁ →
    Collects name ask entries world entries (.ok (signed entries answers)) world₁
  /-- One fails after others have answered, and their answers are lost. -/
  | failed {before after : List (RegistryEntry σ)} {entry : RegistryEntry σ}
      {answers : List (List α)} {cause : Failure} {world₁ world₂ : σ} :
      entries = before ++ entry :: after → InTurn ask before world answers world₁ →
      ask entry.plugin world₁ = (.error cause, world₂) →
      Collects name ask entries world (before ++ [entry]) (.error (.hook entry.name name cause))
        world₂

namespace Collects

variable {name : HookName} {ask : Plugin σ → Hook σ (List α)}
  {entries asked : List (RegistryEntry σ)} {world world' : σ}
  {outcome : Except Failure (List (String × α))}

end Collects

/-! ## Plug-ins that keep a record -/

section Record

variable {ask : Plugin σ → Hook σ α} (askRecorded : Plugin (Recorded σ) → Hook (Recorded σ) α)
  {call : Plugin σ → Call}

/-- Plug-ins that answer in turn do so when they keep a record, and note a call each. -/
theorem InTurn.recorded
    (hask : ∀ plugin : Plugin σ, askRecorded plugin.recorded = (ask plugin).recorded (call plugin))
    {entries : List (RegistryEntry σ)} {answers : List α} {world world' : σ}
    (h : InTurn ask entries world answers world') (calls : List Call) :
    InTurn askRecorded (entries.map .recorded) ⟨world, calls⟩ answers
      ⟨world', calls ++ entries.map fun entry => call entry.plugin⟩ := by
  induction h generalizing calls with
  | nil =>
    rw [List.map_nil, List.map_nil, List.append_nil]
    exact .nil
  | @cons entry _ _ _ _ _ _ hfirst _ ih =>
    have hrest := ih (calls ++ [call entry.plugin])
    rw [List.append_assoc, List.singleton_append] at hrest
    rw [List.map_cons, List.map_cons]
    refine .cons ?_ hrest
    rw [RegistryEntry.recorded, hask, Hook.recorded, hfirst]

end Record

theorem Collects.recorded {name : HookName} {ask : Plugin σ → Hook σ (List α)}
    (askRecorded : Plugin (Recorded σ) → Hook (Recorded σ) (List α)) {call : Plugin σ → Call}
    (hask : ∀ plugin : Plugin σ, askRecorded plugin.recorded = (ask plugin).recorded (call plugin))
    {entries asked : List (RegistryEntry σ)} {outcome : Except Failure (List (String × α))}
    {world world' : σ} (h : Collects name ask entries world asked outcome world')
    (calls : List Call) :
    Collects name askRecorded (entries.map .recorded) ⟨world, calls⟩ (asked.map .recorded) outcome
      ⟨world', calls ++ asked.map fun entry => call entry.plugin⟩ := by
  cases h with
  | @answered answers _ hanswers =>
    have hsigned : signed entries answers = signed (entries.map .recorded) answers := by
      rw [signed, signed, List.zip_map_left, List.flatMap_map]
      rfl
    rw [hsigned]
    exact .answered (hanswers.recorded askRecorded hask calls)
  | @failed before after entry _ _ _ _ hsplit hanswers hfails =>
    have hrecorded : entries.map RegistryEntry.recorded =
        before.map .recorded ++ entry.recorded :: after.map .recorded := by
      rw [hsplit, List.map_append, List.map_cons]
    rw [List.map_append, List.map_append, ← List.append_assoc]
    refine .failed hrecorded (hanswers.recorded askRecorded hask calls) ?_
    rw [RegistryEntry.recorded, hask, Hook.recorded, hfails]
    rfl

/-! ## Arbitration after any registrations -/

/-- What a tracer is asked when an offer ends with a claim. -/
def claimCalls : Except Failure (Option (RegistryEntry σ × Tracer σ)) → List Call
  | .ok (some (entry, _)) =>
    [.hasDynamicSource entry.plugin.identity, .sourceFilename entry.plugin.identity]
  | _ => []

namespace Offers

variable {registry : Registry σ} {host : Host} {path : Path} {frame : Frame}
  {asked : List (RegistryEntry σ)} {world world' : σ}

/-- What comes of the offer of a file: a disposition of the plug-in that claims it. -/
theorem fileTracer_eq {outcome : Except Failure (Option (RegistryEntry σ × Tracer σ))}
    (h : Offers .fileTracer (·.fileTracer path) (registry.withCapability .fileTracer) world asked
      outcome world') :
    (registry.fileTracer host path world).1 = outcome.map (·.map fun claim =>
      (Disposition.ofClaim host path claim.1.name claim.2 world').1) := by
  rw [fileTracer, h.firstAnswer_eq]
  rcases outcome with _ | _ | _ <;> rfl

/-- The calls of the offer of a file: those who are asked, and then the tracer. -/
theorem fileTracer_recorded {outcome : Except Failure (Option (RegistryEntry σ × Tracer σ))}
    (h : Offers .fileTracer (·.fileTracer path) (registry.withCapability .fileTracer) world asked
      outcome world') (calls : List Call) :
    (registry.recorded.fileTracer host path ⟨world, calls⟩).2 =
      ⟨(registry.fileTracer host path world).2,
        calls ++ asked.map (fun entry => .fileTracer entry.plugin.identity path) ++
          claimCalls outcome⟩ := by
  have hcalls : registry.fileTracerCalls path world =
      asked.map fun entry => .fileTracer entry.plugin.identity path := by
    rw [fileTracerCalls, h.asked_eq]
  have hanswer : (registry.fileTracer host path world).1 = outcome.map (·.map fun claim =>
      (Disposition.ofClaim host path claim.1.name claim.2 world').1) := h.fileTracer_eq
  obtain ⟨failure, hfailed, htold⟩ | ⟨found, hfound, htold⟩ :=
    registry.fileTracer_recorded host path ⟨world, calls⟩
  · rw [htold, hcalls]
    rcases outcome with _ | _ | claim
    · exact congrArg (Recorded.mk _) (List.append_nil _).symm
    · cases hfailed.symm.trans hanswer
    · cases hfailed.symm.trans hanswer
  · have hsame := hfound.fileTracer_eq.symm.trans hanswer
    rw [htold, hcalls]
    rcases outcome with _ | _ | ⟨entry, tracer⟩
    · cases hsame
    · rcases found with _ | claim
      · rfl
      · cases hsame
    · rcases found with _ | claim
      · cases hsame
      -- The claim is that of the last one who is asked.
      · have hlast : (Registry.asked (·.fileTracer path) (registry.withCapability .fileTracer)
            world).getLast? = some claim.entry := Claims.asked_eq hfound
        rw [h.asked_eq, h.getLast?_asked] at hlast
        obtain rfl := Option.some.inj hlast
        rfl

end Offers

end Registry

end Coverage
