/-
# What the operations of a recorder do

An operation of a recorder has two sides: what it writes, seen through the lines
and arcs of a file under a label, and how it moves the stack and the context. Both
are stated for every recorder; nothing is assumed about how it came to be. What is
written goes under the label in force, and nothing else is touched.
-/
import Coverage.Proofs.Collector.Signal
import Coverage.Proofs.Data.Measurements

namespace Coverage

open Recorder

namespace LineRange

/-- The lines from one to another, both included. -/
theorem mem_span {first last line : Int} :
    line ∈ span first last ↔ first ≤ line ∧ line ≤ last := by
  rw [SortedSet.mem_def, span, List.mem_map]
  constructor
  · intro h
    obtain ⟨n, hn, rfl⟩ := h
    rw [List.mem_range] at hn
    omega
  · intro h
    obtain ⟨hfirst, hlast⟩ := h
    refine ⟨(line - first).toNat, List.mem_range.2 ?_, ?_⟩ <;> omega

/-- The lines of a measured range are those between its ends. -/
theorem mem_lines {r : LineRange} (hmeasured : r ≠ .unmeasured) {line : Int} :
    line ∈ r.lines ↔ r.first ≤ line ∧ line ≤ r.last := by
  have hnot : ¬ r.isUnmeasured = true := by simpa only [isUnmeasured, beq_iff_eq] using hmeasured
  rw [lines, if_neg hnot, mem_span]

end LineRange

/-- Where an activation is after a step. -/
def MeasuredStep.position (step : MeasuredStep) : Position :=
  ⟨step.plugin, step.source, step.range.last⟩

namespace Recorder

variable (r : Recorder)

/-! ## What a recorder writes -/

section AddArc

variable (source : Path) (plugin : String) (arc : Arc)

/-- Writing an arc changes nothing but the data. -/
@[simp]
theorem branch_addArc : (r.addArc source plugin arc).branch = r.branch := by
  rw [addArc]
  split <;> rfl

@[simp]
theorem stack_addArc : (r.addArc source plugin arc).stack = r.stack := by
  rw [addArc]
  split <;> rfl

@[simp]
theorem context_addArc : (r.addArc source plugin arc).context = r.context := by
  rw [addArc]
  split <;> rfl

@[simp]
theorem label_addArc : (r.addArc source plugin arc).label = r.label := by
  rw [label, activeLabel?, context_addArc, label, activeLabel?]

/-- No line is recorded by writing an arc. -/
@[simp]
theorem linesIn_addArc (path : Path) (label : String) :
    (r.addArc source plugin arc).data.linesIn path label = r.data.linesIn path label := by
  rw [addArc]
  split
  · exact CoverageData.linesIn_addArc
  · rfl

/-- An arc is written under the label in force, if arcs are recorded at all. -/
theorem mem_arcsIn_addArc {path : Path} {label : String} {other : Arc} :
    other ∈ (r.addArc source plugin arc).data.arcsIn path label ↔
      other ∈ r.data.arcsIn path label ∨
        r.branch = true ∧ r.label = label ∧ sameSource source path ∧ other = arc := by
  rw [addArc]
  split
  · next hbranch =>
    simp only [CoverageData.mem_arcsIn_addArc, hbranch, true_and, eq_comm, and_left_comm]
  · next hbranch => simp only [hbranch, Bool.false_eq_true, false_and, or_false]

end AddArc

variable (step : MeasuredStep)

/-- The arcs of a step change nothing but the data. -/
@[simp]
theorem branch_recordArcs (position? : Option Position) :
    (r.recordArcs step position?).branch = r.branch := by
  cases position? with
  | none => exact r.branch_addArc ..
  | some position =>
    rw [recordArcs]
    split <;> simp only [exitFrom, branch_addArc]

@[simp]
theorem stack_recordArcs (position? : Option Position) :
    (r.recordArcs step position?).stack = r.stack := by
  cases position? with
  | none => exact r.stack_addArc ..
  | some position =>
    rw [recordArcs]
    split <;> simp only [exitFrom, stack_addArc]

@[simp]
theorem context_recordArcs (position? : Option Position) :
    (r.recordArcs step position?).context = r.context := by
  cases position? with
  | none => exact r.context_addArc ..
  | some position =>
    rw [recordArcs]
    split <;> simp only [exitFrom, context_addArc]

/-- No line is recorded by the arcs of a step. -/
@[simp]
theorem linesIn_recordArcs (position? : Option Position) (path : Path) (label : String) :
    (r.recordArcs step position?).data.linesIn path label = r.data.linesIn path label := by
  cases position? with
  | none => exact r.linesIn_addArc ..
  | some position =>
    rw [recordArcs]
    split <;> simp only [exitFrom, linesIn_addArc]

/-! ## The operations of a recorder, seen through its views -/

section Execute

variable {step : MeasuredStep} {r : Recorder} {position? : Option Position}
  {outer : List (Option Position)} (hstack : r.stack = position? :: outer)
include hstack

/-- A measured step writes, and then moves the innermost activation. -/
theorem execute_of_cons :
    r.execute step =
      { ({ r with
            data := r.data.addLines step.source step.plugin r.label step.range.lines }.recordArcs
          step position?) with
        stack := some step.position :: outer } := by
  have hbefore : r.stack.head?.join = position? := by rw [hstack, List.head?_cons, Option.join_some]
  have hmoved : ∀ (r : Recorder) (position : Position), r.stack = position? :: outer →
      r.moveTo position = { r with stack := some position :: outer } := by
    intro r position h
    rw [moveTo, h]
  rw [execute, hbefore]
  exact hmoved _ _ ((stack_recordArcs ..).trans hstack)

/-- A measured step moves the innermost activation and nothing else on the stack. -/
theorem frame_execute :
    (r.execute step).branch = r.branch ∧ (r.execute step).context = r.context ∧
      (r.execute step).stack = some step.position :: outer := by
  rw [execute_of_cons hstack]
  exact ⟨branch_recordArcs .., context_recordArcs .., rfl⟩

/-- What a step writes: its lines first, and then its arcs. -/
theorem data_execute :
    (r.execute step).data =
      ({ r with data := r.data.addLines step.source step.plugin r.label step.range.lines }.recordArcs
        step position?).data := by
  rw [execute_of_cons hstack]

/-- A measured step writes its lines under the label in force. -/
theorem mem_linesIn_execute {source : Path} {label : String} {line : Int} :
    line ∈ (r.execute step).data.linesIn source label ↔
      line ∈ r.data.linesIn source label ∨
        sameSource step.source source ∧ label = r.label ∧ line ∈ step.range.lines := by
  rw [data_execute hstack, linesIn_recordArcs, CoverageData.mem_linesIn_addLines]

/-- An activation that ends writes the arc out of its position, and takes its
position and the context that it started with it. -/
theorem leave_of_cons :
    r.leave =
      { r with
        data := (position?.elim r r.exitFrom).data
        stack := outer
        context :=
          if r.context.any fun context => context.2 = outer.length + 1 then none
          else r.context } := by
  rw [leave, hstack, List.length_cons]
  cases position? with
  | none => split <;> rfl
  | some position =>
    have hbranch : (r.exitFrom position).branch = r.branch := branch_addArc ..
    have hcontext : (r.exitFrom position).context = r.context := context_addArc ..
    split <;> simp only [hbranch, hcontext, Option.elim_some]

/-- An activation that ends takes its position and the context that it started with it, and
nothing else on the stack. -/
theorem frame_leave :
    r.leave.branch = r.branch ∧ r.leave.stack = outer ∧
      r.leave.context =
        if r.context.any fun context => context.2 = outer.length + 1 then none else r.context := by
  rw [leave_of_cons hstack]
  exact ⟨rfl, rfl, rfl⟩

/-- No line is recorded when an activation ends. -/
@[simp]
theorem linesIn_leave {source : Path} {label : String} :
    r.leave.data.linesIn source label = r.data.linesIn source label := by
  rw [leave_of_cons hstack]
  cases position? with
  | none => rfl
  | some position => exact linesIn_addArc ..

/-- An activation that ends writes the arc out of its last step, under the label in
force. -/
theorem mem_arcsIn_leave {source : Path} {label : String} {arc : Arc} :
    arc ∈ r.leave.data.arcsIn source label ↔
      arc ∈ r.data.arcsIn source label ∨
        r.branch = true ∧ r.label = label ∧
          ∃ last ∈ position?, sameSource last.source source ∧ arc = ⟨last.lastLine, boundary⟩ := by
  rw [leave_of_cons hstack]
  cases position? with
  | none =>
    have hnone : ¬ ∃ last ∈ (none : Option Position),
        sameSource last.source source ∧ arc = ⟨last.lastLine, boundary⟩ := by simp
    simp only [hnone, and_false, or_false, Option.elim_none]
  | some position =>
    simp only [Option.mem_def, Option.some.injEq, exists_eq_left', Option.elim_some]
    exact mem_arcsIn_addArc ..

end Execute

/-! ## What no operation changes -/

/-- Whether arcs are recorded is settled at the start, and no operation changes it: not the
opening of an activation, nor a step, nor the end of an activation. -/
@[simp]
theorem branch_ensureEntered (r : Recorder) : r.ensureEntered.branch = r.branch := by
  rw [ensureEntered]
  split <;> rfl

@[simp]
theorem branch_execute (r : Recorder) (step : MeasuredStep) :
    (r.execute step).branch = r.branch := by
  rw [execute, moveTo]
  split <;> exact branch_recordArcs ..

@[simp]
theorem branch_leave (r : Recorder) : r.leave.branch = r.branch := by
  cases hstack : r.stack with
  | nil =>
    rw [leave, hstack]
    split <;> rfl
  | cons position? outer => exact (frame_leave hstack).1

/-- Nothing that an event comes to changes whether arcs are recorded. -/
@[simp]
theorem branch_take (r : Recorder) (signal : Signal) : (r.take signal).branch = r.branch := by
  cases signal with
  | leave => exact r.branch_leave
  | line step =>
    cases step with
    | none => exact r.branch_ensureEntered
    | some step => exact (branch_execute ..).trans r.branch_ensureEntered
  | enter given =>
    cases given with
    | none => rfl
    | some label =>
      rw [take]
      split <;> rfl

/-- The start of a frame opens an activation without a position, and writes nothing. -/
theorem frame_take_enter (r : Recorder) (given : Option String) :
    (r.take (.enter given)).data = r.data ∧ (r.take (.enter given)).stack = none :: r.stack := by
  cases given with
  | none => exact ⟨rfl, rfl⟩
  | some given =>
    rw [take]
    split <;> exact ⟨rfl, rfl⟩

/-- The innermost activation ends; with an empty stack nothing does. -/
@[simp]
theorem stack_leave (r : Recorder) : r.leave.stack = r.stack.tail := by
  cases hstack : r.stack with
  | nil =>
    rw [leave, hstack]
    split <;> exact hstack
  | cons position? outer => exact (frame_leave hstack).2.1

/-- A line finds an open activation, and finding it writes nothing. -/
theorem exists_stack_ensureEntered (r : Recorder) :
    ∃ position? outer, r.ensureEntered.stack = position? :: outer ∧
      r.ensureEntered.data = r.data ∧ r.ensureEntered.label = r.label := by
  rw [ensureEntered]
  cases hstack : r.stack with
  | nil => exact ⟨none, [], by rw [List.isEmpty_nil, if_pos rfl, enter, hstack], rfl, rfl⟩
  | cons position? outer => exact ⟨position?, outer, hstack, rfl, rfl⟩

section OtherLabels

variable {r : Recorder} {source : Path} {label : String} (hlabel : r.label ≠ label)
include hlabel

/-- The arcs of a step are not written under another label than the one in force. -/
theorem mem_arcsIn_recordArcs_of_ne (step : MeasuredStep) (position? : Option Position)
    {arc : Arc} :
    arc ∈ (r.recordArcs step position?).data.arcsIn source label ↔
      arc ∈ r.data.arcsIn source label := by
  cases position? with
  | none => simp [recordArcs, mem_arcsIn_addArc, hlabel]
  | some position =>
    rw [recordArcs]
    split <;> simp [exitFrom, mem_arcsIn_addArc, hlabel]

/-- A step writes nothing under another label than the one in force. -/
theorem views_execute_of_ne (step : MeasuredStep) {position? : Option Position}
    {outer : List (Option Position)} (hstack : r.stack = position? :: outer) :
    (∀ line, line ∈ (r.execute step).data.linesIn source label ↔
      line ∈ r.data.linesIn source label) ∧
    ∀ arc, arc ∈ (r.execute step).data.arcsIn source label ↔ arc ∈ r.data.arcsIn source label := by
  constructor
  · intro line
    rw [mem_linesIn_execute hstack]
    exact or_iff_left fun h => hlabel h.2.1.symm
  · intro arc
    have hwritten : ∀ data, ({ r with data := data } : Recorder).label ≠ label := fun _ => hlabel
    rw [data_execute hstack, mem_arcsIn_recordArcs_of_ne (hwritten _),
      CoverageData.arcsIn_addLines]

/-- An activation that ends writes nothing under another label than the one in force. -/
theorem views_leave_of_ne :
    (∀ line, line ∈ r.leave.data.linesIn source label ↔ line ∈ r.data.linesIn source label) ∧
    ∀ arc, arc ∈ r.leave.data.arcsIn source label ↔ arc ∈ r.data.arcsIn source label := by
  cases hstack : r.stack with
  | nil =>
    have hdata : r.leave.data = r.data := by
      rw [leave, hstack]
      split <;> rfl
    simp only [hdata, implies_true, and_self]
  | cons position? outer =>
    constructor
    · intro line
      rw [linesIn_leave hstack]
    · intro arc
      rw [mem_arcsIn_leave hstack]
      exact or_iff_left fun h => hlabel h.2.1

/-- Whatever an event comes to is written under the label in force. -/
theorem views_take_of_ne (signal : Signal) :
    (∀ line, line ∈ (r.take signal).data.linesIn source label ↔
      line ∈ r.data.linesIn source label) ∧
    ∀ arc, arc ∈ (r.take signal).data.arcsIn source label ↔ arc ∈ r.data.arcsIn source label := by
  cases signal with
  | leave => exact views_leave_of_ne hlabel
  | enter given =>
    rw [(frame_take_enter r given).1]
    exact ⟨fun _ => Iff.rfl, fun _ => Iff.rfl⟩
  | line step =>
    obtain ⟨position?, outer, hstack, hdata, hentered⟩ := r.exists_stack_ensureEntered
    cases step with
    | none => simp only [take, hdata, implies_true, and_self]
    | some step =>
      rw [take, ← hdata]
      exact views_execute_of_ne (hentered.symm ▸ hlabel) step hstack

end OtherLabels

end Recorder

end Coverage
