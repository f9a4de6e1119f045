/-
# Activations

A run seen activation by activation. An activation is opened by each start of a
frame, or by a line that comes while none is open; the end of a frame closes the
innermost open one, if any; and a line belongs to the innermost open one. An
activation keeps the measured steps that belong to it in their order, and has
the label of the context that it started, or else the label of the activation
around it.

What was covered is read off the finished list of steps: `Activation.Covers` for
lines, `Activation.Takes` for arcs. There is no position that is carried from
step to step here, and no stack depth that ends a context.
-/
import Coverage.Proofs.Collector.Signal
import Coverage.Proofs.Data.Measurements

namespace Coverage

open Recorder

/-- One activation of a code unit. -/
structure Activation where
  /-- How many activations were opened before it. -/
  number : Nat
  /-- The label of the context that it started, if it started one. -/
  given : Option String
  /-- The label that was in force while it was the innermost one. -/
  label : Option String
  /-- What was measured of it, in order. -/
  steps : List MeasuredStep
  /-- Whether it was closed. -/
  returned : Bool
deriving DecidableEq, Repr

namespace Activation

/-- The label under which its data is kept: the empty one when no context was active. -/
def contextLabel (a : Activation) : String := a.label.getD ""

/-- A line of a file ran in one of the steps. -/
def Covers (a : Activation) (source : Path) (line : Int) : Prop :=
  ∃ step ∈ a.steps, sameSource step.source source ∧
    step.range.first ≤ line ∧ line ≤ step.range.last

/-- The arcs that the activation takes in a file. It enters a file with its first
step, and with every step after one in another file; it leaves a file before such
a step, and with its last step when it is closed. Steps that follow each other in
one file are joined. -/
inductive Takes (a : Activation) (source : Path) : Arc → Prop
  | enter {before after : List MeasuredStep} {step : MeasuredStep}
      (split : a.steps = before ++ step :: after)
      (here : sameSource step.source source)
      (fresh : ∀ prior ∈ before.getLast?, ¬ sameSource prior.source step.source) :
      a.Takes source ⟨-1, step.range.first⟩
  | join {before after : List MeasuredStep} {prior step : MeasuredStep}
      (split : a.steps = before ++ prior :: step :: after)
      (here : sameSource step.source source)
      (same : sameSource prior.source step.source) :
      a.Takes source ⟨prior.range.last, step.range.first⟩
  | switch {before after : List MeasuredStep} {prior step : MeasuredStep}
      (split : a.steps = before ++ prior :: step :: after)
      (here : sameSource prior.source source)
      (other : ¬ sameSource prior.source step.source) :
      a.Takes source ⟨prior.range.last, -1⟩
  | exit {before : List MeasuredStep} {step : MeasuredStep}
      (split : a.steps = before ++ [step])
      (here : sameSource step.source source)
      (closed : a.returned = true) :
      a.Takes source ⟨step.range.last, -1⟩

/-- Add a measured step. -/
def push (a : Activation) (step : MeasuredStep) : Activation :=
  { a with steps := a.steps ++ [step] }

/-- Close the activation. -/
def close (a : Activation) : Activation := { a with returned := true }

@[simp]
theorem contextLabel_push (a : Activation) (step : MeasuredStep) :
    (a.push step).contextLabel = a.contextLabel := rfl

/-! ## What one more step adds -/

/-- The arcs that a step adds, given the step before it in its activation. -/
inductive Joins (prior? : Option MeasuredStep) (step : MeasuredStep) (source : Path) : Arc → Prop
  | enter (here : sameSource step.source source)
      (fresh : ∀ prior ∈ prior?, ¬ sameSource prior.source step.source) :
      Joins prior? step source ⟨-1, step.range.first⟩
  | join {prior : MeasuredStep} (last : prior? = some prior)
      (here : sameSource step.source source)
      (same : sameSource prior.source step.source) :
      Joins prior? step source ⟨prior.range.last, step.range.first⟩
  | switch {prior : MeasuredStep} (last : prior? = some prior)
      (here : sameSource prior.source source)
      (other : ¬ sameSource prior.source step.source) :
      Joins prior? step source ⟨prior.range.last, -1⟩

section Joins

variable {prior step : MeasuredStep} {source : Path} {arc : Arc}

/-- A first step only enters. -/
theorem joins_none_iff :
    Joins none step source arc ↔ sameSource step.source source ∧ arc = ⟨-1, step.range.first⟩ := by
  constructor
  · intro h
    cases h with
    | enter here _ => exact ⟨here, rfl⟩
    | join last _ _ => cases last
    | switch last _ _ => cases last
  · intro h
    obtain ⟨here, rfl⟩ := h
    apply Joins.enter here
    intro prior hprior
    cases hprior

/-- A step is joined to one in the same file. -/
theorem joins_iff_of_same (hsame : sameSource prior.source step.source) :
    Joins (some prior) step source arc ↔
      sameSource step.source source ∧ arc = ⟨prior.range.last, step.range.first⟩ := by
  constructor
  · intro h
    cases h with
    | enter _ fresh => exact absurd hsame (fresh prior rfl)
    | join last here _ =>
      cases last
      exact ⟨here, rfl⟩
    | switch last _ other =>
      cases last
      exact absurd hsame other
  · intro h
    obtain ⟨here, rfl⟩ := h
    exact .join rfl here hsame

/-- Between files, one is left and the other one is entered. -/
theorem joins_iff_of_other (hother : ¬ sameSource prior.source step.source) :
    Joins (some prior) step source arc ↔
      (sameSource prior.source source ∧ arc = ⟨prior.range.last, -1⟩) ∨
        (sameSource step.source source ∧ arc = ⟨-1, step.range.first⟩) := by
  constructor
  · intro h
    cases h with
    | enter here _ => exact .inr ⟨here, rfl⟩
    | join last _ same =>
      cases last
      exact absurd same hother
    | switch last here _ =>
      cases last
      exact .inl ⟨here, rfl⟩
  · intro h
    rcases h with ⟨here, rfl⟩ | ⟨here, rfl⟩
    · exact .switch rfl here hother
    · apply Joins.enter here
      intro other hprior
      cases hprior
      exact hother

end Joins

@[simp]
theorem covers_push {a : Activation} {step : MeasuredStep} {source : Path} {line : Int} :
    (a.push step).Covers source line ↔
      a.Covers source line ∨
        sameSource step.source source ∧ step.range.first ≤ line ∧ line ≤ step.range.last := by
  simp only [Covers, push, List.mem_append, List.mem_singleton, or_and_right, exists_or,
    exists_eq_left]

/-- Nothing is covered before the first step. -/
theorem not_covers_of_nil {a : Activation} (hnil : a.steps = []) {source : Path} {line : Int} :
    ¬ a.Covers source line := by
  intro h
  obtain ⟨step, hstep, -⟩ := h
  rw [hnil] at hstep
  cases hstep

/-- The steps of a longer activation up to some step are the steps up to the new
one, or steps of the shorter activation. -/
theorem append_singleton_eq_split {steps before after : List MeasuredStep}
    {last step : MeasuredStep} (h : steps ++ [last] = before ++ step :: after) :
    (steps = before ∧ last = step ∧ after = []) ∨
      ∃ rest, after = rest ++ [last] ∧ steps = before ++ step :: rest := by
  rcases List.eq_nil_or_concat after with rfl | ⟨rest, final, rfl⟩
  · obtain ⟨hsteps, hlast⟩ := List.append_inj' h rfl
    exact .inl ⟨hsteps, List.head_eq_of_cons_eq hlast, rfl⟩
  · have hassoc : steps ++ [last] = (before ++ step :: rest) ++ [final] := by
      rw [h, List.concat_eq_append, List.append_assoc, List.cons_append]
    obtain ⟨hsteps, hlast⟩ := List.append_inj' hassoc rfl
    have hfinal : last = final := List.head_eq_of_cons_eq hlast
    exact .inr ⟨rest, by rw [List.concat_eq_append, hfinal], hsteps⟩

theorem Takes.push {a : Activation} {source : Path} {arc : Arc} (h : a.Takes source arc)
    (hopen : a.returned = false) (step : MeasuredStep) : (a.push step).Takes source arc := by
  cases h with
  | enter split here fresh =>
    exact .enter (by rw [Activation.push, split, List.append_assoc, List.cons_append]) here fresh
  | join split here same =>
    exact .join (by rw [Activation.push, split, List.append_assoc]; rfl) here same
  | switch split here other =>
    exact .switch (by rw [Activation.push, split, List.append_assoc]; rfl) here other
  | exit split here closed =>
    rw [hopen] at closed
    cases closed

/-- Nothing is taken before the first step. -/
theorem not_takes_of_nil {a : Activation} (hnil : a.steps = []) {source : Path} {arc : Arc} :
    ¬ a.Takes source arc := by
  intro h
  cases h with
  | enter split _ _ => simp [hnil] at split
  | join split _ _ => simp [hnil] at split
  | switch split _ _ => simp [hnil] at split
  | exit split _ _ => simp [hnil] at split

/-- A further step adds the arcs that lead to it from the step before. -/
theorem takes_push {a : Activation} (hopen : a.returned = false) {step : MeasuredStep}
    {source : Path} {arc : Arc} :
    (a.push step).Takes source arc ↔
      a.Takes source arc ∨ Joins a.steps.getLast? step source arc := by
  constructor
  · intro h
    cases h with
    | enter split here fresh =>
      rcases append_singleton_eq_split split with ⟨hbefore, rfl, -⟩ | ⟨rest, -, hsteps⟩
      · exact .inr (.enter here (hbefore ▸ fresh))
      · exact .inl (.enter hsteps here fresh)
    | @join before after prior final split here same =>
      have hsplit : a.steps ++ [step] = (before ++ [prior]) ++ final :: after := by
        rw [List.append_assoc]
        exact split
      rcases append_singleton_eq_split hsplit with ⟨hbefore, rfl, -⟩ | ⟨rest, -, hsteps⟩
      · exact .inr (.join (by rw [hbefore, List.getLast?_concat]) here same)
      · exact .inl (.join (by rw [hsteps, List.append_assoc]; rfl) here same)
    | @switch before after prior final split here other =>
      have hsplit : a.steps ++ [step] = (before ++ [prior]) ++ final :: after := by
        rw [List.append_assoc]
        exact split
      rcases append_singleton_eq_split hsplit with ⟨hbefore, rfl, -⟩ | ⟨rest, -, hsteps⟩
      · exact .inr (.switch (by rw [hbefore, List.getLast?_concat]) here other)
      · exact .inl (.switch (by rw [hsteps, List.append_assoc]; rfl) here other)
    | exit split here closed =>
      have hnot : (a.push step).returned = false := hopen
      rw [hnot] at closed
      cases closed
  · intro h
    rcases h with h | h
    · exact h.push hopen step
    · cases h with
      | enter here fresh => exact .enter rfl here fresh
      | join last here same =>
        obtain ⟨before, hbefore⟩ := List.getLast?_eq_some_iff.1 last
        exact .join (by rw [push, hbefore, List.append_assoc]; rfl) here same
      | switch last here other =>
        obtain ⟨before, hbefore⟩ := List.getLast?_eq_some_iff.1 last
        exact .switch (by rw [push, hbefore, List.append_assoc]; rfl) here other

/-- Closing adds the arc out of the last step. -/
theorem takes_close {a : Activation} (hopen : a.returned = false) {source : Path} {arc : Arc} :
    a.close.Takes source arc ↔
      a.Takes source arc ∨
        ∃ last ∈ a.steps.getLast?, sameSource last.source source ∧ arc = ⟨last.range.last, -1⟩ := by
  constructor
  · intro h
    cases h with
    | enter split here fresh => exact .inl (.enter split here fresh)
    | join split here same => exact .inl (.join split here same)
    | switch split here other => exact .inl (.switch split here other)
    | @exit before step split here _ =>
      have hlast : a.steps.getLast? = some step := by
        rw [show a.steps = before ++ [step] from split, List.getLast?_concat]
      exact .inr ⟨step, hlast, here, rfl⟩
  · intro h
    rcases h with h | ⟨last, hlast, here, rfl⟩
    · cases h with
      | enter split here fresh => exact .enter split here fresh
      | join split here same => exact .join split here same
      | switch split here other => exact .switch split here other
      | exit split here closed =>
        rw [hopen] at closed
        cases closed
    · obtain ⟨before, hbefore⟩ := List.getLast?_eq_some_iff.1 hlast
      exact .exit hbefore here rfl

end Activation

end Coverage
