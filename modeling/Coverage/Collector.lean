/-
# The collector

The collector takes the events of a measured program, asks the plug-ins what
they mean, and hands measured steps to a recorder. The outcome of offering an
executed file is remembered, a failure apart, so that each file is offered once.

Events come in the order of execution: `call` when a frame starts, `line` for
every line that it executes, and `ret` when it ends. An event that fails keeps
what it had changed before.
-/
import Coverage.Recorder
import Coverage.Registry.Arbitration

namespace Coverage

variable {σ α : Type}

/-- A measurement run. -/
structure Collector (σ : Type) where
  host : Host
  plugins : Registry σ
  recorder : Recorder
  /-- The outcomes for the executed files that were offered. -/
  known : SortedMap Path (Option (Disposition σ))

namespace Collector

/-- A run that starts now. -/
def start (host : Host) (plugins : Registry σ) (branch : Bool) : Collector σ :=
  ⟨host, plugins, .start branch, ∅⟩

/-- The result of an event, the run after it, and the world after it. -/
abbrev Outcome (σ α : Type) : Type := Except Failure α × Collector σ × σ

/-- Change the recorder. -/
def mapRecorder (collector : Collector σ) (change : Recorder → Recorder) : Collector σ :=
  { collector with recorder := change collector.recorder }

/-- What was recorded so far. -/
def data (collector : Collector σ) : CoverageData := collector.recorder.data

/-- The label of the active context, if any. -/
def context? (collector : Collector σ) : Option String := collector.recorder.activeLabel?

/-- The disposition of an executed file, which is offered to the plug-ins unless
the outcome is known. -/
def shouldTrace (collector : Collector σ) (filename : Path) (world : σ) :
    Outcome σ (Option (Disposition σ)) :=
  match collector.known.get? filename with
  | some outcome => (.ok outcome, collector, world)
  | none =>
    match collector.plugins.fileTracer collector.host filename world with
    | (.error failure, world) => (.error failure, collector, world)
    | (.ok outcome, world) =>
      (.ok outcome, { collector with known := collector.known.insert filename outcome }, world)

/-- A frame starts. While no context is active, the context switchers are asked
whether one starts with it. -/
def call (collector : Collector σ) (frame : Frame) (world : σ) : Outcome σ Unit :=
  let collector := collector.mapRecorder .enter
  if collector.recorder.context.isNone && collector.plugins.hasContextSwitchers then
    match collector.plugins.dynamicContext frame world with
    | (.error failure, world) => (.error failure, collector, world)
    | (.ok none, world) => (.ok (), collector, world)
    | (.ok (some label), world) => (.ok (), collector.mapRecorder (·.startContext label), world)
  else (.ok (), collector, world)

/-- What a frame executed, by the disposition of its file: nothing when the
frame, or its line, is not measured. -/
def measure (host : Host) (disposition : Disposition σ) (frame : Frame) :
    Hook σ (Option MeasuredStep) := fun world =>
  match disposition.sourceFor host frame world with
  | (.error failure, world) => (.error failure, world)
  | (.ok none, world) => (.ok none, world)
  | (.ok (some source), world) =>
    match disposition.lineRange frame world with
    | (.error failure, world) => (.error failure, world)
    | (.ok range, world) =>
      if range.isUnmeasured then (.ok none, world)
      else (.ok (some ⟨disposition.plugin, source, range⟩), world)

/-- A frame executed a line. When no activation is open, measuring began inside
of one, which is opened now. -/
def line (collector : Collector σ) (frame : Frame) (world : σ) : Outcome σ Unit :=
  let collector := collector.mapRecorder .ensureEntered
  match collector.shouldTrace frame.filename world with
  | (.error failure, collector, world) => (.error failure, collector, world)
  | (.ok none, collector, world) => (.ok (), collector, world)
  | (.ok (some disposition), collector, world) =>
    match measure collector.host disposition frame world with
    | (.error failure, world) => (.error failure, collector, world)
    | (.ok none, world) => (.ok (), collector, world)
    | (.ok (some step), world) => (.ok (), collector.mapRecorder (·.execute step), world)

/-- A frame ends. -/
def ret (collector : Collector σ) (world : σ) : Outcome σ Unit :=
  (.ok (), collector.mapRecorder .leave, world)

/-- What happens to the stack of a measured program. -/
inductive Event where
  | call (frame : Frame)
  | line (frame : Frame)
  | ret (frame : Frame)
deriving DecidableEq, Repr

/-- Take one event. -/
def step (collector : Collector σ) (event : Event) (world : σ) : Outcome σ Unit :=
  match event with
  | .call frame => collector.call frame world
  | .line frame => collector.line frame world
  | .ret _ => collector.ret world

/-- Take events in order, whether or not they fail. -/
def run (collector : Collector σ) (events : List Event) (world : σ) : Collector σ × σ :=
  events.foldl
    (fun state event =>
      let (_, collector, world) := state.1.step event state.2
      (collector, world)) (collector, world)

end Collector

end Coverage
