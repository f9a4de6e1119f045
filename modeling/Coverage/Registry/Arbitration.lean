/-
# Arbitration between plug-ins

An executed file is offered to the file tracers, and a frame to the context
switchers, in the order of registration. The first one that answers wins, the
first one that fails stops the search with its failure, and nobody after it is
asked. The files that could be traced are collected from all file tracers, and
the reporter of a file is asked of the one plug-in that traced it.
-/
import Coverage.Registry.Basic
import Coverage.Registry.Disposition

namespace Coverage

variable {σ α : Type}

namespace Registry

/-- Ask entries in order until one answers or fails. The answer comes with the
name of who gave it. -/
def firstAnswer (name : HookName) (ask : Plugin σ → Hook σ (Option α)) :
    List (RegistryEntry σ) → Hook σ (Option (String × α))
  | [], world => (.ok none, world)
  | entry :: rest, world =>
    match Hook.named entry.name name (ask entry.plugin) world with
    | (.error failure, world) => (.error failure, world)
    | (.ok (some answer), world) => (.ok (some (entry.name, answer)), world)
    | (.ok none, world) => firstAnswer name ask rest world

/-- Ask all entries in order, unless one fails, and collect their answers with
the names of who gave them. -/
def allAnswers (name : HookName) (ask : Plugin σ → Hook σ (List α)) :
    List (RegistryEntry σ) → Hook σ (List (String × α))
  | [], world => (.ok [], world)
  | entry :: rest, world =>
    match Hook.named entry.name name (ask entry.plugin) world with
    | (.error failure, world) => (.error failure, world)
    | (.ok answers, world) =>
      match allAnswers name ask rest world with
      | (.error failure, world) => (.error failure, world)
      | (.ok others, world) => (.ok (answers.map (entry.name, ·) ++ others), world)

/-- Offer an executed file to the file tracers. -/
def fileTracer (host : Host) (registry : Registry σ) (filename : Path) :
    Hook σ (Option (Disposition σ)) := fun world =>
  match firstAnswer .fileTracer (·.fileTracer filename) (registry.withCapability .fileTracer)
    world with
  | (.error failure, world) => (.error failure, world)
  | (.ok none, world) => (.ok none, world)
  | (.ok (some (plugin, tracer)), world) =>
    let (disposition, world) := Disposition.ofClaim host filename plugin tracer world
    (.ok (some disposition), world)

/-- Ask the plug-in with a display name for its reporter on a file. -/
def fileReporter (registry : Registry σ) (plugin : String) (filename : Path) :
    Hook σ ReporterChoice := fun world =>
  match registry.get? plugin with
  | none => (.error (.unknownPlugin plugin), world)
  | some handler =>
    match Hook.named plugin .fileReporter (handler.fileReporter filename) world with
    | (.error failure, world) => (.error failure, world)
    | (.ok none, world) => (.error (.missingReporter plugin filename), world)
    | (.ok (some choice), world) => (.ok choice, world)

/-- Offer a frame to the context switchers. -/
def dynamicContext (registry : Registry σ) (frame : Frame) : Hook σ (Option String) := fun world =>
  match firstAnswer .dynamicContext (·.dynamicContext frame)
    (registry.withCapability .dynamicContext) world with
  | (.error failure, world) => (.error failure, world)
  | (.ok answer, world) => (.ok (answer.map (·.2)), world)

/-- The files below a directory that could be traced, each with the display name
of who would trace it. -/
def findExecutableFiles (registry : Registry σ) (directory : Path) :
    Hook σ (List (String × Path)) :=
  allAnswers .findExecutableFiles (·.findExecutableFiles directory)
    (registry.withCapability .fileTracer)

end Registry

end Coverage
