/-
# Histories

A history is what a run looks like activation by activation: the open ones,
innermost first, and those that were closed. It is built from the signals of the
run, and it remembers everything: nothing that an activation did is dropped when
a step follows or when it ends.

A context is started by an activation that was given a label while no label was
in force. `History.Nested` says how labels lie on the open activations: at most
one of them started a context, those inside it have its label, and those outside
of it have none.
-/
import Coverage.Proofs.Activation.Basic

namespace Coverage

/-- The activations of a run. -/
structure History where
  /-- The open ones, innermost first. -/
  opened : List Activation
  /-- The closed ones, the one closed last first. -/
  closed : List Activation
deriving DecidableEq, Repr

namespace History

/-- Nothing ran yet. -/
instance : EmptyCollection History := ⟨⟨[], []⟩⟩

/-- All activations, open or closed. -/
def activations (h : History) : List Activation := h.closed ++ h.opened

/-- How many activations there are. -/
def size (h : History) : Nat := h.activations.length

/-- The label that is in force: that of the innermost open activation. -/
def inForce (h : History) : Option String := h.opened.head?.bind (·.label)

/-- Open an activation. The label that it was given counts only when none is in force. -/
def enter (h : History) (given : Option String) : History :=
  { h with
    opened :=
      { number := h.size
        given := if h.inForce.isNone then given else none
        label := h.inForce.or given
        steps := []
        returned := false } :: h.opened }

/-- Open an activation if none is open. -/
def ensureEntered (h : History) : History := if h.opened.isEmpty then h.enter none else h

/-- Give a measured step to the innermost open activation. -/
def measure (h : History) (step : MeasuredStep) : History :=
  match h.opened with
  | [] => h
  | a :: outer => { h with opened := a.push step :: outer }

/-- Close the innermost open activation. -/
def leave (h : History) : History :=
  match h.opened with
  | [] => h
  | a :: outer => ⟨outer, a.close :: h.closed⟩

/-- Go on with what an event came to. -/
def take (h : History) : Signal → History
  | .enter given => h.enter given
  | .line none => h.ensureEntered
  | .line (some step) => h.ensureEntered.measure step
  | .leave => h.leave

/-- The history of a run from its signals. -/
def ofSignals (signals : List Signal) : History := signals.foldl take ∅

@[simp]
theorem activations_empty : (∅ : History).activations = [] := rfl

@[simp]
theorem mem_activations {h : History} {a : Activation} :
    a ∈ h.activations ↔ a ∈ h.opened ∨ a ∈ h.closed := by
  rw [activations, List.mem_append, or_comm]

/-- Something holds of an activation when it holds of the one in question or of
another one. -/
theorem exists_mem_activations_of_cons {h : History} {a : Activation} {outer : List Activation}
    (hopened : h.opened = a :: outer) (p : Activation → Prop) :
    (∃ b ∈ h.activations, p b) ↔ p a ∨ ∃ b, (b ∈ outer ∨ b ∈ h.closed) ∧ p b := by
  simp only [mem_activations, hopened, List.mem_cons, or_assoc, or_and_right, exists_or,
    exists_eq_left]

/-- A new activation changes nothing for what needs a step. -/
theorem exists_mem_activations_enter {h : History} (given : Option String) {p : Activation → Prop}
    (hp : ∀ a : Activation, a.steps = [] → ¬ p a) :
    (∃ b ∈ (h.enter given).activations, p b) ↔ ∃ b ∈ h.activations, p b := by
  rw [exists_mem_activations_of_cons rfl, or_iff_right (hp _ rfl)]
  simp only [mem_activations]
  rfl

theorem exists_mem_activations_leave {h : History} {a : Activation} {outer : List Activation}
    (hopened : h.opened = a :: outer) (p : Activation → Prop) :
    (∃ b ∈ h.leave.activations, p b) ↔ p a.close ∨ ∃ b, (b ∈ outer ∨ b ∈ h.closed) ∧ p b := by
  have hleave : h.leave = ⟨outer, a.close :: h.closed⟩ := by rw [leave, hopened]
  simp only [hleave, mem_activations, List.mem_cons, or_and_right, exists_or, exists_eq_left]
  exact or_left_comm

theorem ofSignals_append (first second : List Signal) :
    ofSignals (first ++ second) = second.foldl take (ofSignals first) := by
  rw [ofSignals, List.foldl_append, ofSignals]

theorem ensureEntered_of_nil {h : History} (hnil : h.opened = []) :
    h.ensureEntered = h.enter none := by
  rw [ensureEntered, hnil, List.isEmpty_nil, if_pos rfl]

theorem ensureEntered_of_cons {h : History} {a : Activation} {outer : List Activation}
    (hcons : h.opened = a :: outer) : h.ensureEntered = h := by
  rw [ensureEntered, hcons, List.isEmpty_cons, if_neg Bool.false_ne_true]

/-- A line always belongs to an open activation. -/
theorem exists_opened_ensureEntered (h : History) :
    ∃ a outer, h.ensureEntered.opened = a :: outer := by
  cases hopened : h.opened with
  | nil => exact ⟨_, _, by rw [ensureEntered_of_nil hopened]; rfl⟩
  | cons a outer => exact ⟨a, outer, by rw [ensureEntered_of_cons hopened, hopened]⟩

/-! ## How labels lie on the open activations -/

/-- The context that open activations are in: the label that one of them was given
and the depth at which it lies, the outermost at depth 1. -/
def started : List Activation → Option (String × Nat)
  | [] => none
  | a :: outer => (a.given.map fun label => (label, outer.length + 1)).or (started outer)

/-- The open activations are not closed, have the label of the context that they
are in, and started one only where none was active. -/
def Nested : List Activation → Prop
  | [] => True
  | a :: outer =>
    a.returned = false ∧ a.label = (started (a :: outer)).map (·.1) ∧
      (a.given = none ∨ started outer = none) ∧ Nested outer

theorem started_cons_of_none {a : Activation} (outer : List Activation) (h : a.given = none) :
    started (a :: outer) = started outer := by
  rw [started, h, Option.map_none, Option.none_or]

theorem started_cons_of_some {a : Activation} {label : String} (outer : List Activation)
    (h : a.given = some label) : started (a :: outer) = some (label, outer.length + 1) := by
  rw [started, h, Option.map_some, Option.some_or]

/-- A context lies at the depth of an open activation. -/
theorem depth_started {opened : List Activation} {label : String} {depth : Nat}
    (h : started opened = some (label, depth)) : 1 ≤ depth ∧ depth ≤ opened.length := by
  induction opened with
  | nil => cases h
  | cons a outer ih =>
    cases hgiven : a.given with
    | some given =>
      rw [started_cons_of_some outer hgiven] at h
      cases h
      exact ⟨Nat.succ_pos _, Nat.le_refl _⟩
    | none =>
      rw [started_cons_of_none outer hgiven] at h
      exact ⟨(ih h).1, Nat.le_succ_of_le (ih h).2⟩

/-- A context lies at the depth of the innermost activation exactly when that
activation started one. -/
theorem any_depth_started (a : Activation) (outer : List Activation) :
    ((started (a :: outer)).any fun context => context.2 = outer.length + 1) = a.given.isSome := by
  cases hgiven : a.given with
  | some label =>
    rw [started_cons_of_some outer hgiven]
    simp
  | none =>
    rw [started_cons_of_none outer hgiven]
    cases hstarted : started outer with
    | none => rfl
    | some context =>
      have hdepth := (depth_started hstarted).2
      simp only [Option.any_some, Option.isSome_none, decide_eq_false_iff_not]
      omega

/-- The innermost activation takes its context with it, and no other one. -/
theorem started_tail {a : Activation} {outer : List Activation}
    (hnested : a.given = none ∨ started outer = none) :
    started outer = if a.given.isSome then none else started (a :: outer) := by
  cases hgiven : a.given with
  | some label =>
    rw [Option.isSome_some, if_pos rfl]
    exact hnested.resolve_left (by simp [hgiven])
  | none =>
    rw [started_cons_of_none outer hgiven]
    rfl

/-- Closing the innermost activation ends a context exactly when it lies at the
depth of that activation. -/
theorem started_leave {a : Activation} {outer : List Activation}
    (hnested : a.given = none ∨ started outer = none) :
    (if (started (a :: outer)).any fun context => context.2 = outer.length + 1 then none
      else started (a :: outer)) = started outer := by
  rw [any_depth_started]
  exact (started_tail hnested).symm

/-- The label in force is the label of the context. -/
theorem inForce_eq_started {h : History} (hnested : Nested h.opened) :
    h.inForce = (started h.opened).map (·.1) := by
  rw [inForce]
  cases hopened : h.opened with
  | nil => rfl
  | cons a outer =>
    rw [hopened] at hnested
    exact hnested.2.1

theorem nested_enter {h : History} (hnested : Nested h.opened) (given : Option String) :
    Nested (h.enter given).opened := by
  have hforce := inForce_eq_started hnested
  refine ⟨rfl, ?_, ?_, hnested⟩
  · cases hstarted : started h.opened with
    | none =>
      have hnone : h.inForce = none := by rw [hforce, hstarted]; rfl
      cases given <;> simp [started, hstarted, hnone]
    | some context =>
      have hsome : h.inForce = some context.1 := by rw [hforce, hstarted]; rfl
      simp [started, hstarted, hsome]
  · cases hstarted : started h.opened with
    | none => exact .inr rfl
    | some context =>
      have hsome : h.inForce = some context.1 := by rw [hforce, hstarted]; rfl
      exact .inl (by simp [hsome])

theorem nested_measure {h : History} (hnested : Nested h.opened) (step : MeasuredStep) :
    Nested (h.measure step).opened := by
  rw [measure]
  cases hopened : h.opened with
  | nil => simpa only [hopened] using hnested
  | cons a outer =>
    rw [hopened] at hnested
    exact hnested

theorem nested_leave {h : History} (hnested : Nested h.opened) : Nested h.leave.opened := by
  rw [leave]
  cases hopened : h.opened with
  | nil => simpa only [hopened] using hnested
  | cons a outer =>
    rw [hopened] at hnested
    exact hnested.2.2.2

end History

end Coverage
