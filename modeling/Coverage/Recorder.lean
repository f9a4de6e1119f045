/-
# The recorder

The recorder turns the steps of a measured program into recorded data. It keeps
a stack of activations, innermost first, each with the place where it last
executed measured code, and the dynamic context that is active, if any, with the
stack depth of the activation that started it.

Every measured step adds its lines. When branches are measured it also adds an
arc: from the step before it in the same activation and source file, or from
the entry, which is written as line -1. An activation that leaves a source file,
or that ends, adds an arc from its last line to the exit, also -1.
-/
import Coverage.Data

namespace Coverage

/-- The line that stands for the entry and the exit of a code unit. -/
def boundary : Int := -1

/-- Where an activation last executed measured code. -/
structure Position where
  plugin : String
  source : Path
  lastLine : Int
deriving DecidableEq, Repr

/-- A step that executed measured code. -/
structure MeasuredStep where
  /-- The display name of the plug-in that measured it. -/
  plugin : String
  source : Path
  range : LineRange
deriving DecidableEq, Repr

/-- What is recorded so far, and what is needed to go on. -/
structure Recorder where
  /-- Whether arcs are recorded. -/
  branch : Bool
  /-- The open activations, innermost first. -/
  stack : List (Option Position)
  /-- The label of the active context and the depth of the activation that started it. -/
  context : Option (String × Nat)
  data : CoverageData
deriving DecidableEq, Repr

namespace Recorder

/-- A recorder that saw nothing yet. -/
def start (branch : Bool) : Recorder := ⟨branch, [], none, ∅⟩

/-- The label of the active context, if any. -/
def activeLabel? (r : Recorder) : Option String := r.context.map (·.1)

/-- The label under which data is recorded now. -/
def label (r : Recorder) : String := r.activeLabel?.getD ""

/-- Open an activation. -/
def enter (r : Recorder) : Recorder := { r with stack := none :: r.stack }

/-- Let the innermost activation start a context. -/
def startContext (r : Recorder) (label : String) : Recorder :=
  { r with context := some (label, r.stack.length) }

/-- Open an activation if none is open. -/
def ensureEntered (r : Recorder) : Recorder := if r.stack.isEmpty then r.enter else r

/-- Record an arc of a file, if arcs are recorded. -/
def addArc (r : Recorder) (source : Path) (plugin : String) (arc : Arc) : Recorder :=
  if r.branch then { r with data := r.data.addArc source plugin r.label arc } else r

/-- Record that an activation left the code at a position. -/
def exitFrom (r : Recorder) (position : Position) : Recorder :=
  r.addArc position.source position.plugin ⟨position.lastLine, boundary⟩

/-- Whether two spellings name the same source file. -/
def sameSource (p q : Path) : Bool := compare p q == .eq

/-- Record the arcs of a step, given where its activation was before. -/
def recordArcs (r : Recorder) (step : MeasuredStep) : Option Position → Recorder
  | none => r.addArc step.source step.plugin ⟨boundary, step.range.first⟩
  | some position =>
    if sameSource position.source step.source then
      r.addArc step.source step.plugin ⟨position.lastLine, step.range.first⟩
    else
      (r.exitFrom position).addArc step.source step.plugin ⟨boundary, step.range.first⟩

/-- Put a position on the innermost activation. -/
def moveTo (r : Recorder) (position : Position) : Recorder :=
  match r.stack with
  | [] => r
  | _ :: outer => { r with stack := some position :: outer }

/-- Record a measured step of the innermost activation. -/
def execute (r : Recorder) (step : MeasuredStep) : Recorder :=
  let before := r.stack.head?.join
  let r := { r with data := r.data.addLines step.source step.plugin r.label step.range.lines }
  (r.recordArcs step before).moveTo ⟨step.plugin, step.source, step.range.last⟩

/-- Close the innermost activation, and the context that it started. -/
def leave (r : Recorder) : Recorder :=
  let left :=
    match r.stack with
    | [] => r
    | none :: outer => { r with stack := outer }
    | some position :: outer => { r.exitFrom position with stack := outer }
  if r.context.any fun context => context.2 = r.stack.length then
    { left with context := none }
  else left

end Recorder

end Coverage
