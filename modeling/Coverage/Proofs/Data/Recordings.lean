/-
# Data as the sum of its recordings

All data comes from recordings: lines of a file, or an arc of it, by a plug-in and
under a context. What data shows after recordings is read off their list. A coordinate
is there when one of them brought it, and a file is credited to the plug-in of the
first one for it, whatever the later ones say.
-/
import Coverage.Proofs.Recorder.Credit

namespace Coverage

open Recorder

/-- What is recorded at a time. -/
inductive Coordinates where
  | lines (lines : LineSet)
  | arc (arc : Arc)
deriving DecidableEq, Repr

/-- A recording of lines or of an arc of a file. -/
structure Recording where
  source : Path
  /-- The display name of the plug-in that recorded. -/
  plugin : String
  /-- The label of the context. -/
  context : String
  coordinates : Coordinates
deriving DecidableEq, Repr

namespace Recording

/-- The lines of a recording. -/
def lines (r : Recording) : LineSet :=
  match r.coordinates with
  | .lines lines => lines
  | .arc _ => ∅

/-- The arc of a recording, if any. -/
def arc? (r : Recording) : Option Arc :=
  match r.coordinates with
  | .lines _ => none
  | .arc arc => some arc

end Recording

namespace CoverageData

/-- Take a recording. -/
def add (data : CoverageData) (r : Recording) : CoverageData :=
  match r.coordinates with
  | .lines lines => data.addLines r.source r.plugin r.context lines
  | .arc arc => data.addArc r.source r.plugin r.context arc

section Add

variable (data : CoverageData) (r : Recording) {path : Path} {label : String}

theorem mem_linesIn_add {line : Int} :
    line ∈ (data.add r).linesIn path label ↔
      line ∈ data.linesIn path label ∨
        sameSource r.source path ∧ label = r.context ∧ line ∈ r.lines := by
  rw [add, Recording.lines]
  cases r.coordinates with
  | lines lines => exact mem_linesIn_addLines
  | arc arc => simp

theorem mem_arcsIn_add {arc : Arc} :
    arc ∈ (data.add r).arcsIn path label ↔
      arc ∈ data.arcsIn path label ∨
        sameSource r.source path ∧ label = r.context ∧ r.arc? = some arc := by
  rw [add, Recording.arc?]
  cases r.coordinates with
  | lines lines => simp
  | arc new =>
    dsimp only
    rw [Option.some.injEq, @eq_comm _ new arc]
    exact mem_arcsIn_addArc

theorem tracer?_add (path : Path) :
    (data.add r).tracer? path =
      (data.tracer? path).or (if sameSource r.source path then some r.plugin else none) := by
  have hrecord (change : Measured → Measured) :
      (data.record r.source r.plugin r.context change).tracer? path =
        (data.tracer? path).or (if sameSource r.source path then some r.plugin else none) := by
    rw [tracer?_record]
    split <;> cases data.tracer? path <;> rfl
  rw [add]
  cases r.coordinates with
  | lines lines => exact hrecord _
  | arc arc => exact hrecord _

end Add

/-- Take recordings in order. -/
def addAll (data : CoverageData) (recordings : List Recording) : CoverageData :=
  recordings.foldl add data

theorem addAll_append (data : CoverageData) (first second : List Recording) :
    data.addAll (first ++ second) = (data.addAll first).addAll second := List.foldl_append

section AddAll

variable (data : CoverageData) (recordings : List Recording) {path : Path} {label : String}

/-- A line is there when it was there or a recording brought it. -/
theorem mem_linesIn_addAll {line : Int} :
    line ∈ (data.addAll recordings).linesIn path label ↔
      line ∈ data.linesIn path label ∨
        ∃ r ∈ recordings, sameSource r.source path ∧ label = r.context ∧ line ∈ r.lines := by
  induction recordings generalizing data with
  | nil => simp [addAll]
  | cons r recordings ih =>
    apply (ih (data.add r)).trans
    rw [mem_linesIn_add, or_assoc]
    simp

/-- An arc is there when it was there or a recording brought it. -/
theorem mem_arcsIn_addAll {arc : Arc} :
    arc ∈ (data.addAll recordings).arcsIn path label ↔
      arc ∈ data.arcsIn path label ∨
        ∃ r ∈ recordings, sameSource r.source path ∧ label = r.context ∧ r.arc? = some arc := by
  induction recordings generalizing data with
  | nil => simp [addAll]
  | cons r recordings ih =>
    apply (ih (data.add r)).trans
    rw [mem_arcsIn_add, or_assoc]
    simp

/-- What only the first recording of some kind settles is as it was, or as the first of
these recordings has it. -/
theorem first_addAll {α : Type} (view : CoverageData → Option α) {counts : Recording → Bool}
    {own : Recording → α}
    (h : ∀ data r, view (add data r) = (view data).or (if counts r then some (own r) else none)) :
    view (data.addAll recordings) = (view data).or ((recordings.find? counts).map own) := by
  induction recordings generalizing data with
  | nil => simp [addAll]
  | cons r recordings ih =>
    apply (ih (data.add r)).trans
    rw [h, Option.or_assoc, List.find?_cons]
    cases counts r <;> rfl

/-- The first recording for a file settles its credit. -/
theorem tracer?_addAll (path : Path) :
    (data.addAll recordings).tracer? path =
      (data.tracer? path).or
        ((recordings.find? fun r => sameSource r.source path).map (·.plugin)) :=
  first_addAll data recordings (tracer? · path) fun data r => data.tracer?_add r path

end AddAll

end CoverageData

end Coverage
