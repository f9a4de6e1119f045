/-
# Plug-ins that keep a record of their calls

`Plugin.recorded` is a plug-in that answers as before and writes every call of a
hook down. The record is part of the world, so a run with recorded plug-ins ends
with the list of all calls that were made, in order.
-/
import Coverage.Plugin

namespace Coverage

/-- A call of a hook, with what was handed over. -/
inductive Call where
  | start (moduleName : String) (options : PluginOptions)
  | fileTracer (plugin : String) (filename : Path)
  | sourceFilename (plugin : String)
  | hasDynamicSource (plugin : String)
  | dynamicSource (plugin : String) (filename : Path) (frame : Frame)
  | lineRange (plugin : String) (frame : Frame)
  | fileReporter (plugin : String) (filename : Path)
  | dynamicContext (plugin : String) (frame : Frame)
  | findExecutableFiles (plugin : String) (directory : Path)
  | configure (plugin : String)
  /-- A configuration value that a plug-in was told. -/
  | told (plugin : String) (value : OptionValue)

/-- A world with a record of calls. -/
structure Recorded (σ : Type) where
  world : σ
  calls : List Call

variable {σ α : Type}

/-- Write a call down. -/
def Hook.recorded (call : Call) (hook : Hook σ α) : Hook (Recorded σ) α := fun record =>
  let (answer, world) := hook record.world
  (answer, ⟨world, record.calls ++ [call]⟩)

/-- A tracer of the given plug-in that writes every call down. -/
def Tracer.recorded (plugin : String) (tracer : Tracer σ) : Tracer (Recorded σ) where
  sourceFilename record :=
    let (answer, world) := tracer.sourceFilename record.world
    (answer, ⟨world, record.calls ++ [.sourceFilename plugin]⟩)
  hasDynamicSource record :=
    let (answer, world) := tracer.hasDynamicSource record.world
    (answer, ⟨world, record.calls ++ [.hasDynamicSource plugin]⟩)
  dynamicSource filename frame :=
    (tracer.dynamicSource filename frame).recorded (.dynamicSource plugin filename frame)
  lineRange frame := (tracer.lineRange frame).recorded (.lineRange plugin frame)

/-- A plug-in that writes every call down, the calls of its tracers included. -/
def Plugin.recorded (plugin : Plugin σ) : Plugin (Recorded σ) where
  identity := plugin.identity
  typeName := plugin.typeName
  fileTracer filename record :=
    let (answer, record) :=
      ((plugin.fileTracer filename).recorded (.fileTracer plugin.identity filename)) record
    (answer.map (·.map (Tracer.recorded plugin.identity)), record)
  fileReporter filename :=
    (plugin.fileReporter filename).recorded (.fileReporter plugin.identity filename)
  dynamicContext frame :=
    (plugin.dynamicContext frame).recorded (.dynamicContext plugin.identity frame)
  findExecutableFiles directory :=
    (plugin.findExecutableFiles directory).recorded
      (.findExecutableFiles plugin.identity directory)
  configure record :=
    (plugin.configure record.world).withAnswers.map fun ((answer, world), values) =>
      (answer, ⟨world,
        record.calls ++ .configure plugin.identity :: values.map (.told plugin.identity)⟩)
  systemInfo := plugin.systemInfo

/-- A module that writes its start down and registers recorded plug-ins. -/
def PluginModule.recorded (plugins : PluginModule σ) : PluginModule (Recorded σ) where
  name := plugins.name
  start options record :=
    let (registrations, answer, world) := plugins.start options record.world
    (registrations.map fun (capability, plugin) => (capability, plugin.recorded), answer,
      ⟨world, record.calls ++ [.start plugins.name options]⟩)

end Coverage
