/-
# An activation beneath all others

A line that comes to nothing opens an activation when none is open, and does
nothing else. From then on everything lies one activation higher, the depth at
which a context ends included. `Recorder.raised` is a recorder with such an
activation at the bottom, and it takes every signal as the recorder without it,
until the bottom is reached: there the two are the same again.

So lines that come to nothing can be left out of a run, and what is recorded and
which context is active is the same throughout.
-/
import Coverage.Proofs.Recorder.Operations

namespace Coverage

namespace Recorder

/-- The recorder with one more activation beneath the others, in which nothing was
measured. -/
def raised (r : Recorder) : Recorder :=
  { r with
    stack := r.stack ++ [none]
    context := r.context.map fun context => (context.1, context.2 + 1) }

/-- A context ends at a depth that the stack has. -/
def Grounded (r : Recorder) : Prop :=
  ∀ context ∈ r.context, 1 ≤ context.2 ∧ context.2 ≤ r.stack.length

variable {r : Recorder}

/-! ## Contexts stay on the stack -/

/-- Without an open activation no context is active. -/
theorem Grounded.context_eq_none (hr : r.Grounded) (hnil : r.stack = []) : r.context = none := by
  apply Option.eq_none_iff_forall_not_mem.2
  intro context hcontext
  obtain ⟨hpositive, hdepth⟩ := hr context hcontext
  rw [hnil, List.length_nil] at hdepth
  omega

/-- Without an open activation, the end of one changes nothing. -/
theorem Grounded.leave_eq_self (hr : r.Grounded) (hnil : r.stack = []) : r.leave = r := by
  rw [Recorder.leave, hnil, hr.context_eq_none hnil]
  rfl

theorem grounded_start (branch : Bool) : (start branch).Grounded := by
  intro context hcontext
  cases hcontext

theorem Grounded.enter (hr : r.Grounded) : r.enter.Grounded := by
  intro context hcontext
  obtain ⟨hpositive, hdepth⟩ := hr context hcontext
  exact ⟨hpositive, Nat.le_succ_of_le hdepth⟩

theorem Grounded.ensureEntered (hr : r.Grounded) : r.ensureEntered.Grounded := by
  rw [Recorder.ensureEntered]
  split
  · exact hr.enter
  · exact hr

/-- A context that ends leaves with its activation, and any other one lies further out. -/
theorem Grounded.leave (hr : r.Grounded) : r.leave.Grounded := by
  cases hstack : r.stack with
  | nil =>
    rw [hr.leave_eq_self hstack]
    exact hr
  | cons position? outer =>
    intro context hcontext
    rw [leave_of_cons hstack] at hcontext ⊢
    dsimp only at hcontext ⊢
    split at hcontext
    · cases hcontext
    · next hother =>
      obtain ⟨hpositive, hdepth⟩ := hr context hcontext
      have hne : context.2 ≠ outer.length + 1 := by
        intro heq
        apply hother
        rw [hcontext, Option.any_some, heq, decide_eq_true rfl]
      rw [hstack, List.length_cons] at hdepth
      exact ⟨hpositive, by omega⟩

/-- Whatever an event comes to, a context ends at a depth that the stack has. -/
theorem Grounded.take (hr : r.Grounded) (signal : Signal) : (r.take signal).Grounded := by
  cases signal with
  | leave => exact hr.leave
  | enter given =>
    cases given with
    | none => exact hr.enter
    | some label =>
      rw [Recorder.take]
      split
      · intro context hcontext
        cases hcontext
        exact ⟨Nat.succ_pos _, Nat.le_refl _⟩
      · exact hr.enter
  | line step =>
    cases step with
    | none => exact hr.ensureEntered
    | some step =>
      obtain ⟨position?, outer, hstack, -, -⟩ := r.exists_stack_ensureEntered
      obtain ⟨-, hcontext, hmoved⟩ := @frame_execute step _ _ _ hstack
      have hentered := hr.ensureEntered
      rw [Grounded, hstack] at hentered
      rw [Recorder.take, Grounded, hcontext, hmoved]
      exact hentered

/-! ## Signals one activation higher -/

/-- An activation beneath all others changes nothing about the context that is active. -/
theorem activeLabel?_raised (r : Recorder) : r.raised.activeLabel? = r.activeLabel? := by
  rw [activeLabel?, activeLabel?, raised, Option.map_map]
  rfl

theorem label_raised (r : Recorder) : r.raised.label = r.label := by
  rw [label, label, activeLabel?_raised]

theorem isNone_context_raised (r : Recorder) : r.raised.context.isNone = r.context.isNone := by
  rw [raised, Option.isNone_map]

theorem stack_raised {position? : Option Position} {outer : List (Option Position)}
    (hstack : r.stack = position? :: outer) : r.raised.stack = position? :: (outer ++ [none]) := by
  rw [raised, hstack, List.cons_append]

theorem enter_raised (r : Recorder) (given : Option String) :
    r.raised.take (.enter given) = (r.take (.enter given)).raised := by
  cases given with
  | none => rfl
  | some label =>
    rw [take, take, isNone_context_raised]
    split
    · simp only [raised, startContext, enter, Option.map_some, List.length_cons, List.length_append,
        List.length_nil, List.cons_append]
    · rfl

/-- What is written is the same. -/
theorem addArc_raised (r : Recorder) (source : Path) (plugin : String) (arc : Arc) :
    r.raised.addArc source plugin arc = (r.addArc source plugin arc).raised := by
  rw [addArc, addArc, label_raised]
  have hbranch : r.raised.branch = r.branch := rfl
  rw [hbranch]
  split <;> rfl

theorem recordArcs_raised (r : Recorder) (step : MeasuredStep) (position? : Option Position) :
    r.raised.recordArcs step position? = (r.recordArcs step position?).raised := by
  cases position? with
  | none => exact addArc_raised ..
  | some position =>
    rw [recordArcs, recordArcs, exitFrom, exitFrom]
    split <;> simp only [addArc_raised]

theorem execute_raised {step : MeasuredStep} {position? : Option Position}
    {outer : List (Option Position)} (hstack : r.stack = position? :: outer) :
    r.raised.execute step = (r.execute step).raised := by
  have hwritten : ({ r.raised with
      data := r.raised.data.addLines step.source step.plugin r.raised.label step.range.lines } :
        Recorder) =
      ({ r with data := r.data.addLines step.source step.plugin r.label step.range.lines } :
        Recorder).raised := by
    rw [label_raised]
    rfl
  rw [execute_of_cons hstack, execute_of_cons (stack_raised hstack), hwritten, recordArcs_raised]
  rfl

theorem leave_raised {position? : Option Position} {outer : List (Option Position)}
    (hstack : r.stack = position? :: outer) : r.raised.leave = r.leave.raised := by
  have hdata : (position?.elim r.raised r.raised.exitFrom).data =
      (position?.elim r r.exitFrom).data := by
    cases position? with
    | none => rfl
    | some position =>
      rw [Option.elim_some, Option.elim_some, exitFrom, exitFrom, addArc_raised]
      rfl
  rw [leave_of_cons hstack, leave_of_cons (stack_raised hstack), hdata]
  simp only [raised, List.length_append, List.length_singleton, mk.injEq, true_and, and_true]
  cases r.context with
  | none => rfl
  | some context => simp [apply_ite]

/-! ## A line that comes to nothing -/

/-- The recorder is the other one, or has one more activation at the bottom. -/
def Ahead (r short : Recorder) : Prop := r = short ∨ r = short.raised

theorem ensureEntered_of_cons {position? : Option Position} {outer : List (Option Position)}
    (hstack : r.stack = position? :: outer) : r.ensureEntered = r := by
  rw [ensureEntered, hstack, List.isEmpty_cons, if_neg Bool.false_ne_true]

/-- Where no activation is open, the one that a line opens is the bottom. -/
theorem ensureEntered_of_nil (hr : r.Grounded) (hnil : r.stack = []) :
    r.ensureEntered = r.raised ∧ r.raised.ensureEntered = r.ensureEntered := by
  have hraised : r.raised.stack = [none] := by rw [raised, hnil, List.nil_append]
  have hentered : r.ensureEntered = r.raised := by
    rw [ensureEntered, hnil, List.isEmpty_nil, if_pos rfl, enter, raised, hnil,
      hr.context_eq_none hnil]
    rfl
  exact ⟨hentered, (ensureEntered_of_cons hraised).trans hentered.symm⟩

namespace Ahead

variable {short : Recorder}

theorem data_eq (h : r.Ahead short) : r.data = short.data := by
  rcases h with rfl | rfl <;> rfl

theorem activeLabel?_eq (h : r.Ahead short) : r.activeLabel? = short.activeLabel? := by
  rcases h with rfl | rfl
  · rfl
  · exact activeLabel?_raised short

theorem isNone_context_eq (h : r.Ahead short) : r.context.isNone = short.context.isNone := by
  rcases h with rfl | rfl
  · rfl
  · exact isNone_context_raised short

/-- A line that comes to nothing can be left out. -/
theorem skip (h : r.Ahead short) (hshort : short.Grounded) : r.ensureEntered.Ahead short := by
  cases hstack : short.stack with
  | nil =>
    obtain ⟨hentered, hraised⟩ := ensureEntered_of_nil hshort hstack
    rcases h with rfl | rfl
    · exact .inr hentered
    · exact .inr (hraised.trans hentered)
  | cons position? outer =>
    rcases h with rfl | rfl
    · exact .inl (ensureEntered_of_cons hstack)
    · exact .inr (ensureEntered_of_cons (stack_raised hstack))

/-- A measured step is the same one activation higher. On an empty stack it takes the
bottom for its own activation, and nothing is ahead any more. -/
theorem execute (h : r.Ahead short) (hshort : short.Grounded) (step : MeasuredStep) :
    (r.ensureEntered.execute step).Ahead (short.ensureEntered.execute step) := by
  cases hstack : short.stack with
  | nil =>
    rcases h with rfl | rfl
    · exact .inl rfl
    · exact .inl (by rw [(ensureEntered_of_nil hshort hstack).2])
  | cons position? outer =>
    rcases h with rfl | rfl
    · exact .inl rfl
    · right
      rw [ensureEntered_of_cons hstack, ensureEntered_of_cons (stack_raised hstack),
        execute_raised hstack]

/-- The end of an activation is the same one activation higher. On an empty stack it
ends the bottom, and nothing is ahead any more. -/
theorem leave (h : r.Ahead short) (hshort : short.Grounded) : r.leave.Ahead short.leave := by
  rcases h with rfl | rfl
  · exact .inl rfl
  · cases hstack : short.stack with
    | nil =>
      have hraised : short.raised.stack = [none] := by rw [raised, hstack, List.nil_append]
      have hcontext : short.context = none := hshort.context_eq_none hstack
      left
      rw [hshort.leave_eq_self hstack, leave_of_cons hraised]
      cases short
      cases hstack
      cases hcontext
      rfl
    | cons position? outer => exact .inr (leave_raised hstack)

/-- Whatever an event comes to, it comes to the same one activation higher. -/
theorem take (h : r.Ahead short) (hshort : short.Grounded) (signal : Signal) :
    (r.take signal).Ahead (short.take signal) := by
  cases signal with
  | leave => exact h.leave hshort
  | enter given =>
    rcases h with rfl | rfl
    · exact .inl rfl
    · exact .inr (enter_raised short given)
  | line step =>
    cases step with
    | some step => exact h.execute hshort step
    | none =>
      cases hstack : short.stack with
      | nil =>
        obtain ⟨hentered, hraised⟩ := ensureEntered_of_nil hshort hstack
        rcases h with rfl | rfl
        · exact .inl rfl
        · exact .inl hraised
      | cons position? outer =>
        rw [Recorder.take, Recorder.take, ensureEntered_of_cons hstack]
        exact h.skip hshort

end Ahead

end Recorder

end Coverage
