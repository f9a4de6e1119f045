/-
# Which activation is which

An activation of a history is told from the others by its number, and it can be
followed through the rest of the run: it keeps its number, the label that it was
given and the label that it has, and steps are only added to it. So what is said
of an activation at two moments of a run is said of one activation when the
numbers are equal.
-/
import Mathlib.Data.List.Nodup
import Coverage.Proofs.Activation.History

namespace Coverage

/-- A later look at one activation. -/
structure Activation.Grows (a b : Activation) : Prop where
  number : b.number = a.number
  given : b.given = a.given
  label : b.label = a.label
  steps : a.steps <+: b.steps

namespace Activation.Grows

theorem refl (a : Activation) : a.Grows a := ⟨rfl, rfl, rfl, List.prefix_rfl⟩

theorem trans {a b c : Activation} (hab : a.Grows b) (hbc : b.Grows c) : a.Grows c where
  number := hbc.number.trans hab.number
  given := hbc.given.trans hab.given
  label := hbc.label.trans hab.label
  steps := hab.steps.trans hbc.steps

/-- A step is only added. -/
theorem push (a : Activation) (step : MeasuredStep) : a.Grows (a.push step) :=
  ⟨rfl, rfl, rfl, List.prefix_append _ _⟩

/-- What an activation did stays when it is closed. -/
theorem close (a : Activation) : a.Grows a.close := ⟨rfl, rfl, rfl, List.prefix_rfl⟩

end Activation.Grows

namespace History

/-- The activations are numbered from zero. -/
def Numbered (h : History) : Prop :=
  (h.activations.map Activation.number).Perm (List.range h.size)

/-- Every activation of one history is in another one, where it may have grown. -/
def Extends (h later : History) : Prop :=
  ∀ a ∈ h.activations, ∃ b ∈ later.activations, a.Grows b

namespace Extends

theorem refl (h : History) : h.Extends h := fun a ha => ⟨a, ha, .refl a⟩

theorem trans {h₁ h₂ h₃ : History} (h₁₂ : h₁.Extends h₂) (h₂₃ : h₂.Extends h₃) :
    h₁.Extends h₃ := by
  intro a ha
  obtain ⟨b, hb, hab⟩ := h₁₂ a ha
  obtain ⟨c, hc, hbc⟩ := h₂₃ b hb
  exact ⟨c, hc, hab.trans hbc⟩

end Extends

section Operations

variable (h : History)

/-- Opening adds one activation, and its number is how many there were. -/
theorem activations_enter_perm (given : Option String) :
    ∃ a : Activation, a.number = h.size ∧
      (h.enter given).activations.Perm (a :: h.activations) :=
  ⟨_, rfl, List.perm_middle⟩

/-- Nothing is lost when an activation is opened. -/
theorem extends_enter (given : Option String) : h.Extends (h.enter given) := by
  intro a ha
  obtain ⟨_, -, hperm⟩ := h.activations_enter_perm given
  exact ⟨a, hperm.mem_iff.2 (List.mem_cons_of_mem _ ha), .refl a⟩

/-- Nothing is lost when a line finds an open activation or opens one. -/
theorem extends_ensureEntered : h.Extends h.ensureEntered := by
  rw [ensureEntered]
  split
  · exact h.extends_enter none
  · exact .refl h

/-- A step makes the innermost activation grow. -/
theorem extends_measure (step : MeasuredStep) : h.Extends (h.measure step) := by
  rw [measure]
  split
  · exact .refl h
  · next a outer hopened =>
    intro b hb
    rw [mem_activations, hopened, List.mem_cons, or_assoc] at hb
    rcases hb with rfl | hb
    · exact ⟨b.push step, by simp, .push b step⟩
    · refine ⟨b, ?_, .refl b⟩
      rw [mem_activations, List.mem_cons, or_assoc]
      exact .inr hb

/-- An activation that is closed is still there. -/
theorem extends_leave : h.Extends h.leave := by
  rw [leave]
  split
  · exact .refl h
  · next a outer hopened =>
    intro b hb
    rw [mem_activations, hopened, List.mem_cons, or_assoc] at hb
    rcases hb with rfl | hb
    · exact ⟨b.close, by simp, .close b⟩
    · refine ⟨b, ?_, .refl b⟩
      rw [mem_activations, List.mem_cons]
      exact hb.imp_right .inr

/-- Nothing that ran is lost. -/
theorem extends_take (signal : Signal) : h.Extends (h.take signal) := by
  cases signal with
  | enter given => exact h.extends_enter given
  | leave => exact h.extends_leave
  | line step =>
    cases step with
    | none => exact h.extends_ensureEntered
    | some step => exact h.extends_ensureEntered.trans (extends_measure _ step)

end Operations

/-- Nothing that ran is lost by whatever runs after it. -/
theorem extends_foldl_take (h : History) (signals : List Signal) :
    h.Extends (signals.foldl take h) := by
  induction signals generalizing h with
  | nil => exact .refl h
  | cons signal signals ih => exact (h.extends_take signal).trans (ih _)

namespace Numbered

variable {h : History}

/-- The next activation gets the next number. -/
theorem enter (hh : h.Numbered) (given : Option String) : (h.enter given).Numbered := by
  obtain ⟨a, hnumber, hperm⟩ := h.activations_enter_perm given
  have hsize : (h.enter given).size = h.size + 1 := by
    rw [size, hperm.length_eq, List.length_cons, size]
  rw [Numbered, hsize, List.range_succ]
  apply (hperm.map _).trans
  rw [List.map_cons, hnumber]
  exact (List.Perm.cons _ hh).trans (List.perm_append_singleton _ _).symm

/-- What changes no number and no order keeps activations numbered. -/
theorem of_perm (hh : h.Numbered) {later : History}
    (hperm : (later.activations.map Activation.number).Perm (h.activations.map Activation.number)) :
    later.Numbered := by
  have hsize : later.size = h.size := by
    simpa only [size, List.length_map] using hperm.length_eq
  rw [Numbered, hsize]
  exact hperm.trans hh

/-- A line that opens an activation numbers it like a call does. -/
theorem ensureEntered (hh : h.Numbered) : h.ensureEntered.Numbered := by
  rw [History.ensureEntered]
  split
  · exact hh.enter none
  · exact hh

/-- A step changes no number. -/
theorem measure (hh : h.Numbered) (step : MeasuredStep) : (h.measure step).Numbered := by
  apply hh.of_perm
  rw [History.measure]
  split
  · exact .refl _
  · next a outer hopened =>
    rw [activations, activations, hopened, List.map_append, List.map_append]
    exact .refl _

/-- A closed activation keeps its number. -/
theorem leave (hh : h.Numbered) : h.leave.Numbered := by
  apply hh.of_perm
  rw [History.leave]
  split
  · exact .refl _
  · next a outer hopened =>
    rw [activations, activations, hopened, List.map_append, List.map_append, List.map_cons,
      List.map_cons]
    exact List.perm_middle.symm

/-- The activations stay numbered whatever an event comes to. -/
theorem take (hh : h.Numbered) (signal : Signal) : (h.take signal).Numbered := by
  cases signal with
  | enter given => exact hh.enter given
  | leave => exact hh.leave
  | line step =>
    cases step with
    | none => exact hh.ensureEntered
    | some step => exact hh.ensureEntered.measure step

/-- Two activations of one history with one number are the same. -/
theorem eq_of_number (hh : h.Numbered) {a b : Activation} (ha : a ∈ h.activations)
    (hb : b ∈ h.activations) (hnumber : a.number = b.number) : a = b :=
  List.inj_on_of_nodup_map (hh.nodup_iff.2 List.nodup_range) ha hb hnumber

end Numbered

/-- The activations of every run are numbered from zero. -/
theorem numbered_ofSignals (signals : List Signal) : (ofSignals signals).Numbered := by
  suffices hgeneral : ∀ h : History, h.Numbered → (signals.foldl take h).Numbered from
    hgeneral ∅ (.refl _)
  induction signals with
  | nil => exact fun _ hh => hh
  | cons signal signals ih => exact fun h hh => ih _ (hh.take signal)

end History

end Coverage
