/-
# Dispositions

A disposition is the outcome of a claim: which plug-in traces an executed file,
and with which tracer. Whether the frames of the file have source files of their
own is asked once, when the file is claimed.
-/
import Coverage.Plugin

namespace Coverage

variable {σ : Type}

/-- The outcome of a successful claim of an executed file. -/
structure Disposition (σ : Type) where
  /-- The executed file as it was spelled when it was claimed. -/
  executedFilename : Path
  /-- The canonical name of the source file that is credited in general. -/
  sourceFilename : Path
  /-- The display name of the plug-in. -/
  plugin : String
  /-- Whether frames may have source files of their own. -/
  hasDynamicSource : Bool
  tracer : Tracer σ

namespace Disposition

/-- The disposition of a file that a plug-in claimed with a tracer. -/
def ofClaim (host : Host) (filename : Path) (plugin : String) (tracer : Tracer σ) (world : σ) :
    Disposition σ × σ :=
  let (hasDynamicSource, world) := tracer.hasDynamicSource world
  let (source, world) := tracer.sourceFilename world
  (⟨filename, host.canonical source, plugin, hasDynamicSource, tracer⟩, world)

/-- The source file to credit with a frame; `none` when the frame is not measured. -/
def sourceFor (host : Host) (disposition : Disposition σ) (frame : Frame) :
    Hook σ (Option Path) := fun world =>
  if disposition.hasDynamicSource then
    match Hook.named disposition.plugin .dynamicSourceFilename
      (disposition.tracer.dynamicSource disposition.executedFilename frame) world with
    | (.ok source, world) => (.ok (source.map host.canonical), world)
    | (.error failure, world) => (.error failure, world)
  else (.ok (some disposition.sourceFilename), world)

/-- The lines of the source file that a frame executed. -/
def lineRange (disposition : Disposition σ) (frame : Frame) : Hook σ LineRange :=
  Hook.named disposition.plugin .lineNumberRange (disposition.tracer.lineRange frame)

/-- How a disposition shows in a debugging text. -/
def debugText (disposition : Disposition σ) : String :=
  String.join
    ["Disposition \x7b original_filename: ", Text.quote disposition.executedFilename.text,
      ", source_filename: ", Text.quote disposition.sourceFilename.text,
      ", plugin: ", Text.quote disposition.plugin,
      ", has_dynamic_filename: ", if disposition.hasDynamicSource then "true" else "false",
      ", .. \x7d"]

end Disposition

end Coverage
