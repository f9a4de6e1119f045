/-
# Entries and look-ups of a sorted map

A look-up compares keys, so equal keys find the same value, however they are
spelled. Where keys that compare equal are equal, the entries of a map are its
look-ups and nothing else. A function that is applied to all values goes past a
change of one of them.
-/
import Coverage.SortedMap

namespace Coverage

namespace SortedMap

variable {κ ν μ : Type} [Ord κ] [Std.TransOrd κ]

theorem lookup_congr {j k : κ} (h : compare j k = .eq) (l : List (κ × ν)) :
    lookup j l = lookup k l := by
  induction l with
  | nil => rfl
  | cons e l ih =>
    have hiff : compare j e.1 = .eq ↔ compare k e.1 = .eq :=
      ⟨fun hj => Std.TransCmp.eq_trans (Std.OrientedCmp.eq_symm h) hj,
        fun hk => Std.TransCmp.eq_trans h hk⟩
    simp only [lookup, hiff, ih]

/-- Equal keys find the same value. -/
theorem get?_congr {j k : κ} (h : compare j k = .eq) (m : SortedMap κ ν) :
    m.get? j = m.get? k := lookup_congr h m.toList

theorem lookup_of_mem {e : κ × ν} {l : List (κ × ν)}
    (hl : l.Pairwise (fun a b => compare a.1 b.1 = .lt)) (he : e ∈ l) :
    lookup e.1 l = some e.2 := by
  induction l with
  | nil => cases he
  | cons d l ih =>
    obtain ⟨hd, hl⟩ := List.pairwise_cons.1 hl
    rw [lookup]
    rcases List.mem_cons.1 he with rfl | he
    · rw [if_pos Std.ReflCmp.compare_self]
    · have hne : compare e.1 d.1 ≠ .eq := by
        intro heq
        have hlt := hd e he
        rw [Std.OrientedCmp.eq_symm heq] at hlt
        cases hlt
      rw [if_neg hne]
      exact ih hl he

/-- An entry is found under its key. -/
theorem get?_of_mem {m : SortedMap κ ν} {e : κ × ν} (he : e ∈ m.toList) :
    m.get? e.1 = some e.2 := lookup_of_mem m.ascending he

omit [Std.TransOrd κ] in
@[simp]
theorem keys_mapValues (g : ν → μ) (m : SortedMap κ ν) : (m.mapValues g).keys = m.keys := by
  rw [keys, keys, mapValues, List.map_map]
  rfl

/-- A change of one value commutes with a map of all values that undoes no change. -/
theorem mapValues_alter {g : ν → μ} {f : Option ν → ν} {f' : Option μ → μ}
    (h : ∀ v, g (f v) = f' (v.map g)) (m : SortedMap κ ν) (k : κ) :
    (m.alter k f).mapValues g = (m.mapValues g).alter k f' := by
  apply eq_of_toList_eq
  change (alterList k f m.toList).map _ = alterList k f' (m.toList.map _)
  induction m.toList with
  | nil => exact congrArg (fun v => [(k, v)]) (h none)
  | cons e l ih =>
    simp only [alterList, List.map_cons]
    split
    · exact congrArg (fun v => (k, v) :: _) (h none)
    · exact congrArg (fun v => (e.1, v) :: _) (h (some e.2))
    · rw [List.map_cons, ih]

theorem lt_of_lookup_eq_some {k : κ} {v : ν} {e : κ × ν} {l : List (κ × ν)}
    (hl : ∀ d ∈ l, compare e.1 d.1 = .lt) (h : lookup k l = some v) : compare e.1 k = .lt := by
  induction l with
  | nil => cases h
  | cons d l ih =>
    obtain ⟨hd, hl⟩ := List.forall_mem_cons.1 hl
    rw [lookup] at h
    split at h
    · next hk => exact Std.TransCmp.lt_of_lt_of_eq hd (Std.OrientedCmp.eq_symm hk)
    · exact ih hl h

/-- A change of a value that a map of all values does not see is not seen. -/
theorem mapValues_alter_of_get? {g : ν → μ} {f : Option ν → ν} {m : SortedMap κ ν} {k : κ} {v : ν}
    (hv : m.get? k = some v) (h : g (f (some v)) = g v) :
    (m.alter k f).mapValues g = m.mapValues g := by
  obtain ⟨l, hl⟩ := m
  apply eq_of_toList_eq
  change (alterList k f l).map _ = l.map _
  replace hv : lookup k l = some v := hv
  induction l with
  | nil => cases hv
  | cons e l ih =>
    obtain ⟨he, hl⟩ := List.pairwise_cons.1 hl
    rw [lookup] at hv
    simp only [alterList]
    split at hv
    · next hk =>
      cases hv
      simp only [hk, List.map_cons, h]
    · have hgt : compare k e.1 = .gt := Std.OrientedCmp.gt_of_lt (lt_of_lookup_eq_some he hv)
      simp only [hgt, List.map_cons, ih hl hv]

/-- A change that leaves the value of a key as it is changes nothing. -/
theorem alter_eq_self {f : Option ν → ν} {m : SortedMap κ ν} {k : κ} {v : ν}
    (hv : m.get? k = some v) (h : f (some v) = v) : m.alter k f = m := by
  have hid : ∀ n : SortedMap κ ν, n.mapValues id = n := fun n =>
    eq_of_toList_eq (List.map_id _)
  rw [← hid (m.alter k f), mapValues_alter_of_get? hv h, hid]

/-- A key that was there keeps its spelling, and a new one is listed as it is given. -/
theorem find?_keys_alter (m : SortedMap κ ν) (k j : κ) (f : Option ν → ν) :
    (m.alter k f).keys.find? (compare · j == .eq) =
      (m.keys.find? (compare · j == .eq)).or (if compare k j == .eq then some k else none) := by
  obtain ⟨l, hl⟩ := m
  change ((alterList k f l).map (·.1)).find? _ = ((l.map (·.1)).find? _).or _
  induction l with
  | nil =>
    change [k].find? _ = none.or _
    rw [List.find?_singleton, Option.none_or]
  | cons e l ih =>
    obtain ⟨he, hl⟩ := List.pairwise_cons.1 hl
    simp only [alterList]
    split
    · next hlt =>
      -- All keys that are there lie above the new one, so none of them is the key looked for.
      rw [List.map_cons, List.find?_cons]
      split
      · next hkj =>
        have hnone : ((e :: l).map (·.1)).find? (compare · j == .eq) = none := by
          rw [List.find?_eq_none]
          intro key hkey hkeyj
          obtain ⟨d, hd, rfl⟩ := List.mem_map.1 hkey
          have hkd : compare k d.1 = .lt := by
            rcases List.mem_cons.1 hd with rfl | hd
            · exact hlt
            · exact Std.TransCmp.lt_trans hlt (he d hd)
          rw [Std.TransCmp.eq_trans (beq_iff_eq.1 hkj)
            (Std.OrientedCmp.eq_symm (beq_iff_eq.1 hkeyj))] at hkd
          cases hkd
        rw [hnone, Option.none_or, if_pos hkj]
      · next hkj => rw [hkj, if_neg Bool.false_ne_true, Option.or_none]
    · next heq =>
      rw [List.map_cons, List.map_cons, List.find?_cons]
      split
      · rfl
      · next hej =>
        have hkj : (compare k j == .eq) = false := by
          rw [← hej]
          exact congrArg (· == .eq) (Std.TransCmp.congr_left heq)
        rw [hkj, if_neg Bool.false_ne_true, Option.or_none]
    · rw [List.map_cons, List.map_cons, List.find?_cons, List.find?_cons]
      split
      · rfl
      · exact ih hl

theorem isSome_get?_of_mem_keys {m : SortedMap κ ν} {k : κ} (h : k ∈ m.keys) :
    (m.get? k).isSome := by
  obtain ⟨e, he, rfl⟩ := List.mem_map.1 h
  rw [get?_of_mem he, Option.isSome_some]

section Lawful

variable [Std.LawfulEqOrd κ]

omit [Std.TransOrd κ] in
theorem mem_of_lookup {k : κ} {v : ν} {l : List (κ × ν)} (h : lookup k l = some v) :
    (k, v) ∈ l := by
  induction l with
  | nil => cases h
  | cons d l ih =>
    rw [lookup] at h
    split at h
    · next heq =>
      have hkey : k = d.1 := Std.LawfulEqOrd.eq_of_compare heq
      have hvalue : d.2 = v := Option.some.inj h
      rw [hkey, ← hvalue]
      exact List.mem_cons_self
    · exact List.mem_cons_of_mem _ (ih h)

/-- The entries are the look-ups. -/
theorem mem_toList_iff {m : SortedMap κ ν} {k : κ} {v : ν} :
    (k, v) ∈ m.toList ↔ m.get? k = some v :=
  ⟨fun h => get?_of_mem h, mem_of_lookup⟩

theorem mem_keys_iff {m : SortedMap κ ν} {k : κ} : k ∈ m.keys ↔ (m.get? k).isSome := by
  constructor
  · exact isSome_get?_of_mem_keys
  · intro h
    obtain ⟨v, hv⟩ := Option.isSome_iff_exists.1 h
    exact List.mem_map.2 ⟨(k, v), mem_toList_iff.2 hv, rfl⟩

theorem mem_values_iff {m : SortedMap κ ν} {v : ν} :
    v ∈ m.values ↔ ∃ k, m.get? k = some v := by
  rw [values, List.mem_map]
  constructor
  · intro h
    obtain ⟨e, he, rfl⟩ := h
    exact ⟨e.1, get?_of_mem he⟩
  · intro h
    obtain ⟨k, hk⟩ := h
    exact ⟨(k, v), mem_toList_iff.2 hk, rfl⟩

end Lawful

end SortedMap

end Coverage
