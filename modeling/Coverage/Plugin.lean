/-
# Plug-ins

A plug-in is an object with up to six hooks, each with a default that does
nothing. A hook may fail, and may read and change a world that all plug-ins
share: their own memory, and whatever else they can reach. The world is a
parameter, so that statements hold for plug-ins with any memory, and so that a
world can keep a record of the calls.

A tracer is what a plug-in gives for a file that it claims. It maps the frames
of that file to source files and lines.
-/
import Coverage.ConfigScript
import Coverage.Failure
import Coverage.Line
import Coverage.Reporter

namespace Coverage

/-- A question that may fail, and that may read and change a world. -/
abbrev Hook (σ α : Type) : Type := σ → Except Failure α × σ

/-- The hook that always gives one answer and leaves the world alone. -/
def Hook.answer {σ α : Type} (a : α) : Hook σ α := fun world => (.ok a, world)

/-- Put a failure of a hook beneath one that names the plug-in and the hook. -/
def Hook.named {σ α : Type} (plugin : String) (name : HookName) (hook : Hook σ α) : Hook σ α :=
  fun world =>
    match hook world with
    | (.ok a, world) => (.ok a, world)
    | (.error cause, world) => (.error (.hook plugin name cause), world)

/-- A stack frame that is executing: the file its code was loaded from, the line
it is at, and the code unit it runs. -/
structure Frame where
  filename : Path
  line : Int
  function : String
deriving DecidableEq, Repr

/-- The same frame at another line. -/
def Frame.at (frame : Frame) (line : Int) : Frame := { frame with line := line }

/-- The measuring side of a claimed file. -/
structure Tracer (σ : Type) where
  /-- The source file that is credited, in general. -/
  sourceFilename : σ → Path × σ
  /-- Whether frames may have source files of their own. -/
  hasDynamicSource : σ → Bool × σ := fun world => (false, world)
  /-- The source file of one frame of the executed file; `none` when the frame is not measured. -/
  dynamicSource : Path → Frame → Hook σ (Option Path) := fun _ _ => Hook.answer none
  /-- The lines that a frame executed. -/
  lineRange : Frame → Hook σ LineRange := fun frame => Hook.answer (.single frame.line)

/-- A plug-in object. -/
structure Plugin (σ : Type) where
  /-- Tells objects apart: two plug-ins with one identity are the same object. -/
  identity : String
  /-- The name of the object's type. -/
  typeName : String
  /-- Claims an executed file. -/
  fileTracer : Path → Hook σ (Option (Tracer σ)) := fun _ => Hook.answer none
  /-- Reports on a file that the plug-in claimed. -/
  fileReporter : Path → Hook σ (Option ReporterChoice) := fun _ => Hook.answer none
  /-- Names the context that starts with a frame. -/
  dynamicContext : Frame → Hook σ (Option String) := fun _ => Hook.answer none
  /-- Lists the files below a directory that the plug-in could trace. -/
  findExecutableFiles : Path → Hook σ (List Path) := fun _ => Hook.answer []
  /-- Adjusts the configuration. -/
  configure : σ → ConfigScript (Except Failure Unit × σ) := fun world => .done (.ok (), world)
  /-- Names and values that the plug-in tells about itself. -/
  systemInfo : List (String × String) := []

/-- What a plug-in can be registered for. -/
inductive Capability where
  | fileTracer
  | configurer
  | dynamicContext
deriving DecidableEq, Repr

/-- A module that registers plug-ins when it starts. -/
structure PluginModule (σ : Type) where
  name : String
  /-- What the start registers, in order, and whether it succeeds, given the
  module's own options. -/
  start : PluginOptions → σ → List (Capability × Plugin σ) × Except Failure Unit × σ

end Coverage
