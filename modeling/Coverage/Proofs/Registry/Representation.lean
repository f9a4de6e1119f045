/-
# What a registry is made of

A registry has one entry for every plug-in object that was ever registered, in the
order in which the objects first came. The first registration of an object settles
everything about its entry: the object itself, and its display name, which is the
first that was free among `name`, `name#2`, `name#3` and so on. The search for a
free name ends because the names to try are different, and there is one more of
them than there are entries. The list of a capability shows the objects that were
registered for it, each once, in the order in which they first came for it.

The step lemma is `Represents.register`: one registration adds at most one entry
and at most one position. What holds of a whole history follows from the end of it
towards the front, since it is the last registration that finds the registry full.
-/
import Coverage.Proofs.Registry.Registration
import Mathlib.Data.List.Induction

namespace Coverage

variable {σ : Type}

/-- The name that a registration asks for. -/
def Registration.wantedName (r : Registration σ) : String :=
  r.moduleName ++ "." ++ r.plugin.typeName

/-- The objects of registrations, by identity, in the order in which they first come. -/
def Registration.objects (registrations : List (Registration σ)) : List String :=
  (registrations.map (·.plugin.identity)).eraseDups

open Registration (objects)

/-- A list with one more element, without repetitions. -/
theorem eraseDups_concat {α : Type} [DecidableEq α] (l : List α) (a : α) :
    (l ++ [a]).eraseDups = if a ∈ l then l.eraseDups else l.eraseDups ++ [a] := by
  rw [List.eraseDups_append]
  split
  · next h => simp [List.removeAll, h]
  · next h => simp [List.removeAll, h, List.eraseDups_cons]

namespace Registration

theorem mem_objects {registrations : List (Registration σ)} {identity : String} :
    identity ∈ objects registrations ↔ ∃ r ∈ registrations, r.plugin.identity = identity := by
  rw [objects, List.mem_eraseDups, List.mem_map]

theorem objects_concat (registrations : List (Registration σ)) (r : Registration σ) :
    objects (registrations ++ [r]) =
      if r.plugin.identity ∈ objects registrations then objects registrations
      else objects registrations ++ [r.plugin.identity] := by
  simp only [objects, List.map_append, List.map_singleton, eraseDups_concat,
    List.mem_eraseDups]

/-- The registration with which an object first comes. -/
def first? (registrations : List (Registration σ)) (identity : String) :
    Option (Registration σ) :=
  registrations.find? (·.plugin.identity = identity)

theorem first?_append_of_eq_some {registrations : List (Registration σ)} {identity : String}
    {first : Registration σ} (h : first? registrations identity = some first)
    (later : List (Registration σ)) : first? (registrations ++ later) identity = some first := by
  rw [first?] at h
  rw [first?, List.find?_append, h, Option.some_or]

theorem first?_concat_self {registrations : List (Registration σ)} {r : Registration σ}
    (h : r.plugin.identity ∉ objects registrations) :
    first? (registrations ++ [r]) r.plugin.identity = some r := by
  have hnone : first? registrations r.plugin.identity = none := by
    refine List.find?_eq_none.2 fun old hold hidentity => h ?_
    exact mem_objects.2 ⟨old, hold, of_decide_eq_true hidentity⟩
  rw [first?, List.find?_append, ← first?, hnone, Option.none_or]
  exact List.find?_cons_of_pos (decide_eq_true rfl)

end Registration

namespace Registry

/-! ## The search for a free name -/

/-- The search for a free name, beside names that are taken: what it finds, and with how
many tries. -/
inductive FindsName (taken : List String) (name : String) : String → Nat → Prop
  /-- The name itself is free. -/
  | free : name ∉ taken → FindsName taken name name 1
  /-- The name is taken, and so are all the numbered ones before the one that is found. -/
  | numbered (n : Nat) : 2 ≤ n → name ∈ taken →
      (∀ m, 2 ≤ m → m < n → numbered name m ∈ taken) → numbered name n ∉ taken →
      FindsName taken name (numbered name n) n

/-- A new entry gets the first name that is free, within one more try than there are entries. -/
theorem findsName_freshName (registry : Registry σ) (name : String) :
    ∃ tries, FindsName registry.names name (registry.freshName name) tries ∧
      tries ≤ registry.size + 1 := by
  by_cases hfree : name ∉ registry.names
  · refine ⟨1, ?_, Nat.le_add_left 1 _⟩
    have hfound : registry.freshName name = name := by simp [freshName, candidates, hfree]
    rw [hfound]
    exact .free hfree
  have htaken : name ∈ registry.names := not_not.1 hfree
  -- the name itself is passed over, so a numbered one is found
  obtain ⟨candidate, hcandidate, hunused⟩ := registry.exists_free_candidate name
  have hfound : ((candidates name registry.size).find? fun candidate =>
      candidate ∉ registry.names).isSome :=
    List.find?_isSome.2 ⟨candidate, hcandidate, decide_eq_true hunused⟩
  obtain ⟨found, hfound⟩ := Option.isSome_iff_exists.1 hfound
  have hfresh : registry.freshName name = found := by rw [freshName, hfound, Option.getD_some]
  rw [candidates, List.find?_cons_of_neg (by simpa using htaken), List.find?_map,
    Option.map_eq_some_iff] at hfound
  obtain ⟨i, hi, rfl⟩ := hfound
  obtain ⟨hlast, hrange, hbefore⟩ := List.find?_range_eq_some.1 hi
  refine ⟨i + 2, ?_, Nat.add_le_add_right (List.mem_range.1 hrange) 1⟩
  rw [hfresh]
  refine .numbered (i + 2) (Nat.le_add_left 2 i) htaken ?_ (by simpa using hlast)
  intro m hm hlt
  obtain ⟨j, rfl⟩ := Nat.exists_eq_add_of_le' hm
  simpa using hbefore j (Nat.lt_of_add_lt_add_right hlt)

/-! ## One more registration -/

/-- The objects of the entries, in order. -/
def identities (registry : Registry σ) : List String :=
  registry.entries.map (·.plugin.identity)

/-- The objects that are listed under a capability, in order. -/
def listed (registry : Registry σ) (capability : Capability) : List String :=
  (registry.withCapability capability).map (·.plugin.identity)

/-- A registration changes no entry, and adds one when its object is new. -/
theorem entries_register_cases (registry : Registry σ) (r : Registration σ) :
    (r.plugin.identity ∈ registry.identities ∧
      (registry.register r.moduleName r.capability r.plugin).entries = registry.entries) ∨
    (r.plugin.identity ∉ registry.identities ∧
      (registry.register r.moduleName r.capability r.plugin).entries =
        registry.entries ++ [⟨registry.freshName r.wantedName, r.plugin⟩]) := by
  rw [register, entries_grant]
  obtain ⟨i, entry, hplace, hentry, hidentity⟩ | ⟨hnew, hplace⟩ :=
    registry.place_cases r.wantedName r.plugin
  · refine .inl ⟨List.mem_map.2 ⟨entry, List.mem_of_getElem? hentry, hidentity⟩, ?_⟩
    exact congrArg (·.1.entries) hplace
  · refine .inr ⟨fun hmem => ?_, congrArg (·.1.entries) hplace⟩
    obtain ⟨entry, hentry, hidentity⟩ := List.mem_map.1 hmem
    exact hnew entry hentry hidentity

/-- A position is listed under a capability exactly when its object is. -/
theorem mem_positions_iff {registry : Registry σ} (h : registry.WellFormed)
    {capability : Capability} {i : Nat} {entry : RegistryEntry σ}
    (hentry : registry.entries[i]? = some entry) :
    i ∈ registry.positions capability ↔
      entry.plugin.identity ∈ registry.listed capability := by
  rw [listed, List.mem_map]
  constructor
  · intro hi
    exact ⟨entry, mem_withCapability.2 ⟨i, hi, hentry⟩, rfl⟩
  · rintro ⟨other, hother, hidentity⟩
    obtain ⟨j, hj, hat⟩ := mem_withCapability.1 hother
    have hsame : other = entry :=
      h.eq_of_identity (List.mem_of_getElem? hat) (List.mem_of_getElem? hentry) hidentity
    have hposition : registry.entries[j]? = registry.entries[i]? := by rw [hat, hentry, hsame]
    exact (List.getElem?_inj (h.positions capability j hj) h.objects.of_map).1 hposition ▸ hj

/-- A new entry is listed under no capability. -/
theorem listed_place {registry : Registry σ} (h : registry.WellFormed) (name : String)
    (plugin : Plugin σ) (capability : Capability) :
    (registry.place name plugin).1.listed capability = registry.listed capability := by
  rw [listed, listed, withCapability, withCapability, positions_place]
  congr 1
  apply List.filterMap_congr
  intro i hi
  obtain ⟨added, hadded⟩ := (registry.extends_place name plugin).entries
  rw [← hadded, List.getElem?_append_left (h.positions capability i hi)]

/-- What is listed under a capability is listed there again without change. -/
theorem listed_grant {registry : Registry σ} (h : registry.WellFormed) {i : Nat}
    {entry : RegistryEntry σ} (hentry : registry.entries[i]? = some entry)
    (granted capability : Capability) :
    (registry.grant granted i).listed capability =
      if capability = granted ∧ entry.plugin.identity ∉ registry.listed capability then
        registry.listed capability ++ [entry.plugin.identity]
      else registry.listed capability := by
  have hmem : i ∈ registry.positions capability ↔
      entry.plugin.identity ∈ registry.listed capability := mem_positions_iff h hentry
  rw [listed, withCapability, positions_grant, entries_grant, addOnce]
  by_cases hcapability : capability = granted
  · rw [if_pos hcapability]
    by_cases hthere : i ∈ registry.positions capability
    · rw [if_pos hthere, if_neg (fun hnew => hnew.2 (hmem.1 hthere)), listed, withCapability]
    · rw [if_neg hthere, if_pos ⟨hcapability, fun hlisted => hthere (hmem.2 hlisted)⟩,
        List.filterMap_append, List.map_append, listed, withCapability]
      simp [hentry]
  · rw [if_neg hcapability, if_neg (fun hnew => hcapability hnew.1), listed, withCapability]

/-- A registration lists its object under its capability, unless it is there. -/
theorem listed_register {registry : Registry σ} (h : registry.WellFormed) (r : Registration σ)
    (capability : Capability) :
    (registry.register r.moduleName r.capability r.plugin).listed capability =
      if capability = r.capability ∧ r.plugin.identity ∉ registry.listed capability then
        registry.listed capability ++ [r.plugin.identity]
      else registry.listed capability := by
  obtain ⟨hplaced, entry, hentry, hidentity⟩ := h.place r.wantedName r.plugin
  have hgranted := listed_grant hplaced hentry r.capability capability
  rw [listed_place h, hidentity] at hgranted
  exact hgranted

/-- What an entry owes to the registrations: the first registration of its object gave both
the object and the name. -/
structure SettledBy (registry : Registry σ) (registrations : List (Registration σ)) (i : Nat)
    (entry : RegistryEntry σ) (r : Registration σ) : Prop where
  first : Registration.first? registrations entry.plugin.identity = some r
  plugin : entry.plugin = r.plugin
  name : ∃ tries, FindsName (registry.names.take i) r.wantedName entry.name tries ∧ tries ≤ i + 1

/-- What registrations make of a registry. -/
structure Represents (registry : Registry σ) (registrations : List (Registration σ)) : Prop where
  /-- There is one entry for every object, in the order in which the objects first come. -/
  identities : registry.identities = objects registrations
  /-- The first registration of an object settles its entry. -/
  settled : ∀ i entry, registry.entries[i]? = some entry →
    ∃ r, registry.SettledBy registrations i entry r
  /-- A capability lists a position once. -/
  once : ∀ capability, (registry.positions capability).Nodup
  /-- A capability lists the objects that were registered for it, in the order in which they
  first come for it. -/
  listed : ∀ capability, registry.listed capability =
    objects (registrations.filter (·.capability = capability))

namespace SettledBy

variable {registry later : Registry σ} {registrations : List (Registration σ)} {i : Nat}
  {entry : RegistryEntry σ} {r : Registration σ}

/-- What settled an entry settles it for ever. -/
theorem extend (h : registry.SettledBy registrations i entry r) (hi : i ≤ registry.size)
    (hextends : registry.Extends later) (more : List (Registration σ)) :
    later.SettledBy (registrations ++ more) i entry r where
  first := Registration.first?_append_of_eq_some h.first more
  plugin := h.plugin
  name := by
    obtain ⟨added, hadded⟩ := hextends.entries
    have hnames : later.names.take i = registry.names.take i := by
      rw [names, ← hadded, List.map_append, List.take_append_of_le_length, names]
      rwa [List.length_map]
    rw [hnames]
    exact h.name

end SettledBy

namespace Represents

theorem empty : (∅ : Registry σ).Represents [] where
  identities := rfl
  settled _ _ hentry := by cases hentry
  once capability := by cases capability <;> exact List.nodup_nil
  listed capability := by cases capability <;> rfl

variable {registry : Registry σ} {registrations : List (Registration σ)}

/-- What one registration makes of a registry. -/
theorem register (h : registry.Represents registrations) (hformed : registry.WellFormed)
    (r : Registration σ) :
    (registry.register r.moduleName r.capability r.plugin).Represents (registrations ++ [r]) where
  identities := by
    rw [Registration.objects_concat, ← h.identities]
    obtain ⟨hthere, hentries⟩ | ⟨hnew, hentries⟩ := registry.entries_register_cases r
    · rw [if_pos hthere, Registry.identities, hentries, Registry.identities]
    · rw [if_neg hnew, Registry.identities, hentries, List.map_append, List.map_singleton,
        Registry.identities]
  settled i entry hentry := by
    have hextends := registry.extends_register r.moduleName r.capability r.plugin
    -- an entry that was there before is settled already
    have hold (hentry : registry.entries[i]? = some entry) : ∃ first,
        (registry.register r.moduleName r.capability r.plugin).SettledBy (registrations ++ [r])
          i entry first := by
      obtain ⟨first, hfirst⟩ := h.settled i entry hentry
      have hi : i < registry.size := (List.getElem?_eq_some_iff.1 hentry).1
      exact ⟨first, hfirst.extend (Nat.le_of_lt hi) hextends [r]⟩
    obtain ⟨-, hentries⟩ | ⟨hnew, hentries⟩ := registry.entries_register_cases r
    · rw [hentries] at hentry
      exact hold hentry
    rw [hentries] at hentry
    by_cases hi : i < registry.size
    · rw [List.getElem?_append_left hi] at hentry
      exact hold hentry
    rw [List.getElem?_append_right (Nat.le_of_not_lt hi), List.getElem?_singleton] at hentry
    split at hentry
    · next hlast =>
      cases hentry
      have hlength : i = registry.size := Nat.le_antisymm (Nat.le_of_sub_eq_zero hlast) (by omega)
      obtain ⟨tries, hfinds, htries⟩ := registry.findsName_freshName r.wantedName
      have hnames : (registry.register r.moduleName r.capability r.plugin).names.take i =
          registry.names := by
        rw [names, hentries, List.map_append, List.take_append_of_le_length, List.take_of_length_le,
          names] <;> exact Nat.le_of_eq (by rw [List.length_map, hlength, size])
      refine ⟨r, ?_, rfl, tries, ?_, hlength ▸ htries⟩
      · exact Registration.first?_concat_self (h.identities ▸ hnew)
      · rw [hnames]
        exact hfinds
    · cases hentry
  once capability := by
    rw [Registry.register, positions_grant, positions_place, addOnce]
    split
    · split
      · exact h.once capability
      · next hnew =>
        rw [← List.concat_eq_append]
        exact List.Nodup.concat hnew (h.once capability)
    · exact h.once capability
  listed capability := by
    rw [listed_register hformed, h.listed, List.filter_append]
    by_cases hcapability : capability = r.capability
    · have hsingle : [r].filter (·.capability = capability) = [r] := by simp [hcapability]
      rw [hsingle, Registration.objects_concat]
      simp [hcapability]
    · have hsingle : [r].filter (·.capability = capability) = [] := by
        simp [Ne.symm hcapability]
      rw [hsingle, List.append_nil, if_neg (fun hnew => hcapability hnew.1)]

end Represents

/-- A history of registrations, from its end. -/
theorem represents_registerEach (registrations : List (Registration σ)) :
    ((∅ : Registry σ).registerEach registrations).Represents registrations := by
  induction registrations using List.reverseRecOn with
  | nil => exact .empty
  | append_singleton registrations r ih =>
    rw [registerEach_append]
    exact ih.register (WellFormed.empty.registerEach registrations) r

/-- A registry holds one entry for every object that was registered, in the order in which the
objects first came. Names are different and stay; the first registration of an object gives its
entry, under the wanted name or the first free one with a number from 2 on, which is found
within one more try than there are entries before. To register an object again, by whatever
module, leaves the entries as they are. A capability lists positions of entries, each once, in
the order in which their objects were first registered for it. -/
theorem registry_of_registrations (registrations later : List (Registration σ)) :
    let registry := (∅ : Registry σ).registerEach registrations
    registry.names.Nodup ∧
    registry.names <+: ((∅ : Registry σ).registerEach (registrations ++ later)).names ∧
    registry.size = (objects registrations).length ∧
    (∀ (i : Nat) (identity : String), (objects registrations)[i]? = some identity →
      ∃ r name tries, Registration.first? registrations identity = some r ∧
        registry.names[i]? = some name ∧ registry.get? name = some r.plugin ∧
        FindsName (registry.names.take i) r.wantedName name tries ∧ tries ≤ i + 1) ∧
    (∀ r : Registration σ, r.plugin.identity ∈ objects registrations →
      (registry.register r.moduleName r.capability r.plugin).entries = registry.entries) ∧
    ∀ capability, (registry.positions capability).Nodup ∧
      (∀ i ∈ registry.positions capability, i < registry.size) ∧
      (registry.withCapability capability).map (·.plugin.identity) =
        objects (registrations.filter (·.capability = capability)) := by
  intro registry
  have hformed : registry.WellFormed := WellFormed.empty.registerEach registrations
  have h : registry.Represents registrations := represents_registerEach registrations
  refine ⟨hformed.names, ?stay, ?size, ?entry, ?again, ?capability⟩
  case stay =>
    rw [registerEach_append]
    exact ((extends_registerEach registry later).entries).map _
  case size => rw [← h.identities, identities, List.length_map, size]
  case entry =>
    intro i identity hidentity
    rw [← h.identities, identities, List.getElem?_map, Option.map_eq_some_iff] at hidentity
    obtain ⟨entry, hentry, rfl⟩ := hidentity
    obtain ⟨r, hfirst, hplugin, tries, hfinds, htries⟩ := h.settled i entry hentry
    refine ⟨r, entry.name, tries, hfirst, ?_, ?_, hfinds, htries⟩
    · rw [names, List.getElem?_map, hentry, Option.map_some]
    · rw [hformed.get?_of_mem (List.mem_of_getElem? hentry), hplugin]
  case again =>
    intro r hr
    obtain ⟨-, hentries⟩ | ⟨hnew, -⟩ := registry.entries_register_cases r
    · exact hentries
    · exact absurd (h.identities ▸ hr) hnew
  case capability =>
    exact fun capability => ⟨h.once capability, hformed.positions capability, h.listed capability⟩

/-- Two objects of one type, the first of which comes again under another module. -/
example :
    let first : Plugin Unit := { identity := "first", typeName := "Sqrt" }
    let second : Plugin Unit := { identity := "second", typeName := "Sqrt" }
    let registry := (∅ : Registry Unit).registerEach
      [⟨"math", .fileTracer, first⟩, ⟨"math", .configurer, second⟩, ⟨"more", .configurer, first⟩]
    registry.names = ["math.Sqrt", "math.Sqrt#2"] ∧ registry.configurers = [1, 0] := by
  decide +kernel

end Registry

end Coverage
