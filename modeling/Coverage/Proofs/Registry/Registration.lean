/-
# What registrations make of a registry

A registry is made by registrations, of plug-in objects under names that modules
and types give. Objects may come again, also for other capabilities, and names may
repeat. The invariant of every registration is `Registry.WellFormed`: an object
has one entry, an entry has a name of its own, and the lists of the capabilities
point at entries. A registry only grows, so what a name stands for is settled
when it is given.
-/
import Coverage.Registry.Basic
import Mathlib.Data.List.Nodup
import Mathlib.Tactic.ByContra

namespace Coverage

variable {σ : Type}

/-- A registration of a plug-in by a module. -/
structure Registration (σ : Type) where
  moduleName : String
  capability : Capability
  plugin : Plugin σ

namespace Registry

/-! ## Fresh names -/

theorem numbered_injective (name : String) : Function.Injective (numbered name) := by
  intro m n h
  rw [numbered, numbered, String.append_assoc, String.append_assoc, String.append_right_inj,
    String.append_right_inj] at h
  have hdigits : Nat.toDigits 10 m = Nat.toDigits 10 n := String.ofList_injective h
  rw [← @Nat.ofDigitChars_ten_toDigits m, hdigits, Nat.ofDigitChars_ten_toDigits]

theorem numbered_ne (name : String) (n : Nat) : numbered name n ≠ name := by
  intro h
  have hlength := congrArg String.length h
  rw [numbered, String.length_append, String.length_append] at hlength
  have hmark : "#".length = 1 := rfl
  omega

/-- The names to try are different. -/
theorem nodup_candidates (name : String) (taken : Nat) : (candidates name taken).Nodup := by
  rw [candidates, List.nodup_cons]
  constructor
  · intro hmem
    obtain ⟨i, -, hi⟩ := List.mem_map.1 hmem
    exact numbered_ne name _ hi
  · apply List.nodup_range.map
    intro i j hij
    exact Nat.add_right_cancel (numbered_injective name hij)

/-- One of the names to try is free. -/
theorem exists_free_candidate (registry : Registry σ) (name : String) :
    ∃ candidate ∈ candidates name registry.size, candidate ∉ registry.names := by
  by_contra hall
  have hsubset : candidates name registry.size ⊆ registry.names := by
    intro candidate hcandidate
    by_contra hfree
    exact hall ⟨candidate, hcandidate, hfree⟩
  have hlength := List.Nodup.length_le_of_subset (nodup_candidates name registry.size) hsubset
  rw [candidates, names, List.length_cons, List.length_map, List.length_map, List.length_range,
    size] at hlength
  omega

/-- The name of a new entry is no other entry's. -/
theorem freshName_notMem (registry : Registry σ) (name : String) :
    registry.freshName name ∉ registry.names := by
  rw [freshName]
  cases hfound : (candidates name registry.size).find? fun candidate =>
      candidate ∉ registry.names with
  | some candidate => simpa using List.find?_some hfound
  | none =>
    obtain ⟨candidate, hcandidate, hfree⟩ := registry.exists_free_candidate name
    have htaken := List.find?_eq_none.1 hfound candidate hcandidate
    exact absurd hfree (by simpa using htaken)

/-! ## Registrations -/

/-- What a registry owes to the registrations that made it. -/
structure WellFormed (registry : Registry σ) : Prop where
  /-- No two entries share a name. -/
  names : registry.names.Nodup
  /-- No two entries hold one object. -/
  objects : (registry.entries.map fun entry => entry.plugin.identity).Nodup
  /-- The lists of the capabilities hold positions of entries. -/
  positions : ∀ capability, ∀ i ∈ registry.positions capability, i < registry.size

/-- What a registry keeps when more is registered. -/
structure Extends (registry later : Registry σ) : Prop where
  entries : registry.entries <+: later.entries
  positions : ∀ capability, registry.positions capability <+: later.positions capability

namespace Extends

theorem refl (registry : Registry σ) : registry.Extends registry :=
  ⟨List.prefix_rfl, fun _ => List.prefix_rfl⟩

theorem trans {r₁ r₂ r₃ : Registry σ} (h₁₂ : r₁.Extends r₂) (h₂₃ : r₂.Extends r₃) :
    r₁.Extends r₃ where
  entries := h₁₂.entries.trans h₂₃.entries
  positions capability := (h₁₂.positions capability).trans (h₂₃.positions capability)

end Extends

/-- Placing an object finds its entry, or adds one under a fresh name. -/
theorem place_cases (registry : Registry σ) (name : String) (plugin : Plugin σ) :
    (∃ i entry, registry.place name plugin = (registry, i) ∧ registry.entries[i]? = some entry ∧
      entry.plugin.identity = plugin.identity) ∨
    ((∀ entry ∈ registry.entries, entry.plugin.identity ≠ plugin.identity) ∧
      registry.place name plugin =
        ({ registry with entries := registry.entries ++ [⟨registry.freshName name, plugin⟩] },
          registry.size)) := by
  rw [place]
  cases hposition : registry.position? plugin with
  | some i =>
    obtain ⟨hi, hidentity, -⟩ := List.findIdx?_eq_some_iff_getElem.1 hposition
    exact .inl ⟨i, registry.entries[i], rfl, List.getElem?_eq_getElem hi, by simpa using hidentity⟩
  | none =>
    refine .inr ⟨fun entry hentry => ?_, rfl⟩
    simpa using List.findIdx?_eq_none_iff.1 hposition entry hentry

theorem mem_addOnce {positions : List Nat} {i j : Nat} :
    j ∈ addOnce positions i ↔ j ∈ positions ∨ j = i := by
  rw [addOnce]
  split
  · next hmem => exact ⟨.inl, fun h => h.elim id fun heq => heq ▸ hmem⟩
  · rw [List.mem_append, List.mem_singleton]

theorem prefix_addOnce (positions : List Nat) (i : Nat) : positions <+: addOnce positions i := by
  rw [addOnce]
  split
  · exact List.prefix_rfl
  · exact List.prefix_append _ _

@[simp]
theorem entries_grant (registry : Registry σ) (capability : Capability) (i : Nat) :
    (registry.grant capability i).entries = registry.entries := by
  cases capability <;> rfl

theorem positions_grant (registry : Registry σ) (capability other : Capability) (i : Nat) :
    (registry.grant capability i).positions other =
      if other = capability then addOnce (registry.positions other) i
      else registry.positions other := by
  cases capability <;> cases other <;> rfl

@[simp]
theorem positions_place (registry : Registry σ) (name : String) (plugin : Plugin σ)
    (capability : Capability) :
    (registry.place name plugin).1.positions capability = registry.positions capability := by
  obtain ⟨_, _, hplace, -, -⟩ | ⟨-, hplace⟩ := registry.place_cases name plugin
  · rw [hplace]
  · rw [hplace]
    cases capability <;> rfl

theorem extends_place (registry : Registry σ) (name : String) (plugin : Plugin σ) :
    registry.Extends (registry.place name plugin).1 := by
  obtain ⟨_, _, hplace, -, -⟩ | ⟨-, hplace⟩ := registry.place_cases name plugin
  · rw [hplace]
    exact .refl registry
  · rw [hplace]
    exact ⟨List.prefix_append _ _, fun capability => by cases capability <;> exact List.prefix_rfl⟩

theorem extends_grant (registry : Registry σ) (capability : Capability) (i : Nat) :
    registry.Extends (registry.grant capability i) where
  entries := (entries_grant registry capability i).symm ▸ List.prefix_rfl
  positions other := by
    rw [positions_grant]
    split
    · exact prefix_addOnce _ _
    · exact List.prefix_rfl

/-- A registration takes nothing away. -/
theorem extends_register (registry : Registry σ) (moduleName : String) (capability : Capability)
    (plugin : Plugin σ) : registry.Extends (registry.register moduleName capability plugin) :=
  (registry.extends_place _ plugin).trans (extends_grant _ capability _)

namespace WellFormed

variable {registry : Registry σ}

theorem empty : (∅ : Registry σ).WellFormed where
  names := List.nodup_nil
  objects := List.nodup_nil
  positions capability _ hi := by
    cases capability <;> cases hi

/-- Placing an object gives the position of its entry. -/
theorem place (h : registry.WellFormed) (name : String) (plugin : Plugin σ) :
    (registry.place name plugin).1.WellFormed ∧
      ∃ entry, (registry.place name plugin).1.entries[(registry.place name plugin).2]? =
        some entry ∧ entry.plugin.identity = plugin.identity := by
  obtain ⟨i, entry, hplace, hentry, hidentity⟩ | ⟨hnew, hplace⟩ :=
    registry.place_cases name plugin
  · rw [hplace]
    exact ⟨h, entry, hentry, hidentity⟩
  · rw [hplace]
    refine ⟨⟨?_, ?_, ?_⟩, ⟨registry.freshName name, plugin⟩, ?_, rfl⟩
    · rw [Registry.names, List.map_append, List.map_singleton, ← List.concat_eq_append]
      exact List.Nodup.concat (registry.freshName_notMem name) h.names
    · have hfresh : plugin.identity ∉ registry.entries.map (·.plugin.identity) := by
        intro hmem
        obtain ⟨entry, hentry, hidentity⟩ := List.mem_map.1 hmem
        exact hnew entry hentry hidentity
      rw [List.map_append, List.map_singleton, ← List.concat_eq_append]
      exact List.Nodup.concat hfresh h.objects
    · intro capability i hi
      have hold : i < registry.size := h.positions capability i (by cases capability <;> exact hi)
      rw [size, List.length_append]
      exact Nat.lt_add_right _ hold
    · exact List.getElem?_concat_length

theorem grant (h : registry.WellFormed) (capability : Capability) {i : Nat}
    (hi : i < registry.size) : (registry.grant capability i).WellFormed where
  names := by
    rw [Registry.names, entries_grant]
    exact h.names
  objects := by
    rw [entries_grant]
    exact h.objects
  positions other j hj := by
    rw [size, entries_grant]
    rw [positions_grant] at hj
    split at hj
    · exact (mem_addOnce.1 hj).elim (h.positions other j) fun heq => heq ▸ hi
    · exact h.positions other j hj

/-- A registration keeps a registry well-formed. -/
theorem register (h : registry.WellFormed) (moduleName : String) (capability : Capability)
    (plugin : Plugin σ) : (registry.register moduleName capability plugin).WellFormed := by
  obtain ⟨hplaced, entry, hentry, -⟩ := h.place (moduleName ++ "." ++ plugin.typeName) plugin
  exact hplaced.grant capability (List.getElem?_eq_some_iff.1 hentry).1

/-- A name stands for the plug-in of its entry. -/
theorem get?_of_mem (h : registry.WellFormed) {entry : RegistryEntry σ}
    (hentry : entry ∈ registry.entries) : registry.get? entry.name = some entry.plugin := by
  have hfound : (registry.entries.find? (·.name = entry.name)).isSome :=
    List.find?_isSome.2 ⟨entry, hentry, decide_eq_true rfl⟩
  obtain ⟨found, hfound⟩ := Option.isSome_iff_exists.1 hfound
  have hname : found.name = entry.name := by simpa using List.find?_some hfound
  have hsame : found = entry :=
    List.inj_on_of_nodup_map h.names (List.mem_of_find?_eq_some hfound) hentry hname
  rw [get?, hfound, Option.map_some, hsame]

/-- One object has one entry. -/
theorem eq_of_identity (h : registry.WellFormed) {a b : RegistryEntry σ}
    (ha : a ∈ registry.entries) (hb : b ∈ registry.entries)
    (hidentity : a.plugin.identity = b.plugin.identity) : a = b :=
  List.inj_on_of_nodup_map h.objects ha hb hidentity

end WellFormed

theorem mem_withCapability {registry : Registry σ} {capability : Capability}
    {entry : RegistryEntry σ} :
    entry ∈ registry.withCapability capability ↔
      ∃ i ∈ registry.positions capability, registry.entries[i]? = some entry :=
  List.mem_filterMap

theorem mem_entries_of_mem_withCapability {registry : Registry σ} {capability : Capability}
    {entry : RegistryEntry σ} (h : entry ∈ registry.withCapability capability) :
    entry ∈ registry.entries := by
  obtain ⟨i, -, hi⟩ := mem_withCapability.1 h
  exact List.mem_of_getElem? hi

/-- A registration lists nothing under a capability but what was listed, and its own
object under its own capability. -/
theorem mem_withCapability_register {registry : Registry σ} (h : registry.WellFormed)
    {moduleName : String} {capability other : Capability} {plugin : Plugin σ}
    {entry : RegistryEntry σ}
    (hentry : entry ∈ (registry.register moduleName capability plugin).withCapability other) :
    entry ∈ registry.withCapability other ∨
      other = capability ∧ entry.plugin.identity = plugin.identity := by
  obtain ⟨-, placed, hplaced, hidentity⟩ :=
    h.place (moduleName ++ "." ++ plugin.typeName) plugin
  obtain ⟨i, hi, hat⟩ := mem_withCapability.1 hentry
  rw [register, entries_grant] at hat
  rw [register, positions_grant, positions_place] at hi
  have hold : i ∈ registry.positions other → entry ∈ registry.withCapability other := by
    intro hmem
    obtain ⟨added, hadded⟩ :=
      (registry.extends_place (moduleName ++ "." ++ plugin.typeName) plugin).entries
    rw [← hadded, List.getElem?_append_left (h.positions other i hmem)] at hat
    exact mem_withCapability.2 ⟨i, hmem, hat⟩
  split at hi
  · next hother =>
    rcases mem_addOnce.1 hi with hmem | rfl
    · exact .inl (hold hmem)
    · rw [hplaced] at hat
      exact .inr ⟨hother, Option.some.inj hat ▸ hidentity⟩
  · exact .inl (hold hi)

/-! ## Histories of registrations -/

/-- Register in order. -/
def registerEach (registry : Registry σ) (registrations : List (Registration σ)) : Registry σ :=
  registrations.foldl (fun registry r => registry.register r.moduleName r.capability r.plugin)
    registry

theorem registerEach_append (registry : Registry σ) (first second : List (Registration σ)) :
    registry.registerEach (first ++ second) = (registry.registerEach first).registerEach second :=
  List.foldl_append

theorem extends_registerEach (registry : Registry σ) (registrations : List (Registration σ)) :
    registry.Extends (registry.registerEach registrations) := by
  induction registrations generalizing registry with
  | nil => exact .refl registry
  | cons r registrations ih => exact (registry.extends_register ..).trans (ih _)

theorem WellFormed.registerEach {registry : Registry σ} (h : registry.WellFormed)
    (registrations : List (Registration σ)) : (registry.registerEach registrations).WellFormed := by
  induction registrations generalizing registry with
  | nil => exact h
  | cons r registrations ih => exact ih (h.register ..)

/-- Every entry listed under a capability is there by a registration for it. -/
theorem exists_registration {registrations : List (Registration σ)} {capability : Capability}
    {entry : RegistryEntry σ}
    (hentry : entry ∈ ((∅ : Registry σ).registerEach registrations).withCapability capability) :
    ∃ r ∈ registrations, r.capability = capability ∧
      r.plugin.identity = entry.plugin.identity := by
  suffices hgeneral : ∀ registry : Registry σ, registry.WellFormed →
      entry ∈ (registry.registerEach registrations).withCapability capability →
      entry ∈ registry.withCapability capability ∨
        ∃ r ∈ registrations, r.capability = capability ∧
          r.plugin.identity = entry.plugin.identity by
    apply (hgeneral ∅ .empty hentry).resolve_left
    intro hempty
    cases capability <;> cases hempty
  clear hentry
  induction registrations with
  | nil => exact fun _ _ hentry => .inl hentry
  | cons r registrations ih =>
    intro registry h hentry
    rcases ih _ (h.register ..) hentry with hlisted | ⟨other, hother, hwhy⟩
    · rcases mem_withCapability_register h hlisted with hold | ⟨hcapability, hidentity⟩
      · exact .inl hold
      · exact .inr ⟨r, List.mem_cons_self, hcapability.symm, hidentity.symm⟩
    · exact .inr ⟨other, List.mem_cons_of_mem _ hother, hwhy⟩

end Registry

end Coverage
