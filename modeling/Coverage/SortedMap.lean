/-
# Finite maps in ascending key order

A `SortedMap κ ν` is a list of entries with strictly ascending keys. Keys are
told apart by `compare` alone: two keys that compare equal name the same entry,
even when they are spelled differently, and the spelling that came first is the
one that stays. That is what a table keyed by file names needs.

The view is `get?`. `SortedMap.alter` is the one primitive that writes; the
lemmas say what it does to a look-up, and that it moves no other entry.
-/

namespace Coverage

/-- A finite map, kept as its entries in strictly ascending order of their keys. -/
structure SortedMap (κ ν : Type) [Ord κ] where
  /-- The entries in ascending key order. -/
  toList : List (κ × ν)
  /-- Each key is strictly below all that follow it. -/
  ascending : toList.Pairwise (fun a b => compare a.1 b.1 = .lt)

namespace SortedMap

variable {κ ν μ : Type} [Ord κ]

instance [DecidableEq κ] [DecidableEq ν] : DecidableEq (SortedMap κ ν) := fun m n =>
  decidable_of_iff (m.toList = n.toList)
    ⟨fun h => by cases m; cases n; cases h; rfl, fun h => h ▸ rfl⟩

instance [Repr κ] [Repr ν] : Repr (SortedMap κ ν) := ⟨fun m n => reprPrec m.toList n⟩

instance : EmptyCollection (SortedMap κ ν) := ⟨⟨[], .nil⟩⟩

instance : Inhabited (SortedMap κ ν) := ⟨∅⟩

@[simp]
theorem toList_empty : (∅ : SortedMap κ ν).toList = [] := rfl

/-- Two maps with the same entries are equal. -/
theorem eq_of_toList_eq {m n : SortedMap κ ν} (h : m.toList = n.toList) : m = n := by
  cases m; cases n; cases h; rfl

/-- The number of entries. -/
def size (m : SortedMap κ ν) : Nat := m.toList.length

/-- Whether there is no entry. -/
def isEmpty (m : SortedMap κ ν) : Bool := m.toList.isEmpty

/-- The keys in ascending order. -/
def keys (m : SortedMap κ ν) : List κ := m.toList.map (·.1)

/-- The values in ascending order of their keys. -/
def values (m : SortedMap κ ν) : List ν := m.toList.map (·.2)

/-- The value in a list of entries under a key that compares equal to `k`. -/
def lookup (k : κ) : List (κ × ν) → Option ν
  | [] => none
  | e :: rest => if compare k e.1 = .eq then some e.2 else lookup k rest

/-- The value stored under `k`, if any. -/
def get? (m : SortedMap κ ν) (k : κ) : Option ν := lookup k m.toList

/-- Whether some value is stored under `k`. -/
def contains (m : SortedMap κ ν) (k : κ) : Bool := (m.get? k).isSome

@[simp]
theorem get?_empty (k : κ) : (∅ : SortedMap κ ν).get? k = none := rfl

/-- Apply `f` to every value. -/
def mapValues (f : ν → μ) (m : SortedMap κ ν) : SortedMap κ μ :=
  ⟨m.toList.map fun e => (e.1, f e.2), m.ascending.map _ fun _ _ h => h⟩

theorem lookup_map (f : ν → μ) (k : κ) (l : List (κ × ν)) :
    lookup k (l.map fun e => (e.1, f e.2)) = (lookup k l).map f := by
  induction l with
  | nil => rfl
  | cons e l ih =>
    simp only [List.map_cons, lookup, ih]
    split <;> rfl

@[simp]
theorem get?_mapValues (f : ν → μ) (m : SortedMap κ ν) (k : κ) :
    (m.mapValues f).get? k = (m.get? k).map f := lookup_map f k m.toList

/-! ## Writing one entry -/

/-- Change the entry of `k` in a list with ascending keys. `f` sees the value
that is there, and a key that is there keeps its spelling. -/
def alterList (k : κ) (f : Option ν → ν) : List (κ × ν) → List (κ × ν)
  | [] => [(k, f none)]
  | e :: rest =>
    match compare k e.1 with
    | .lt => (k, f none) :: e :: rest
    | .eq => (e.1, f (some e.2)) :: rest
    | .gt => e :: alterList k f rest

theorem forall_lt_alterList {k b : κ} {f : Option ν → ν} {l : List (κ × ν)}
    (hk : compare b k = .lt) (hl : ∀ e ∈ l, compare b e.1 = .lt) :
    ∀ e ∈ alterList k f l, compare b e.1 = .lt := by
  induction l with
  | nil =>
    intro e he
    simp only [alterList, List.mem_singleton] at he
    exact he ▸ hk
  | cons d rest ih =>
    intro e he
    simp only [alterList] at he
    split at he
    · rcases List.mem_cons.1 he with rfl | he
      · exact hk
      · exact hl e he
    · rcases List.mem_cons.1 he with rfl | he
      · exact hl d List.mem_cons_self
      · exact hl e (List.mem_cons_of_mem _ he)
    · rcases List.mem_cons.1 he with rfl | he
      · exact hl _ List.mem_cons_self
      · exact ih (fun e he => hl e (List.mem_cons_of_mem _ he)) e he

variable [Std.TransOrd κ]

theorem ascending_alterList {k : κ} {f : Option ν → ν} {l : List (κ × ν)}
    (hl : l.Pairwise (fun a b => compare a.1 b.1 = .lt)) :
    (alterList k f l).Pairwise (fun a b => compare a.1 b.1 = .lt) := by
  induction l with
  | nil => exact List.pairwise_singleton _ _
  | cons e rest ih =>
    obtain ⟨he, hrest⟩ := List.pairwise_cons.1 hl
    simp only [alterList]
    split
    · rename_i h
      exact List.pairwise_cons.2 ⟨fun d hd => by
        rcases List.mem_cons.1 hd with rfl | hd
        · exact h
        · exact Std.TransCmp.lt_trans h (he d hd), hl⟩
    · exact List.pairwise_cons.2 ⟨he, hrest⟩
    · rename_i h
      exact List.pairwise_cons.2
        ⟨forall_lt_alterList (Std.OrientedCmp.lt_of_gt h) he, ih hrest⟩

/-- Change the value of one key, which is added if it is new. -/
def alter (m : SortedMap κ ν) (k : κ) (f : Option ν → ν) : SortedMap κ ν :=
  ⟨alterList k f m.toList, ascending_alterList m.ascending⟩

/-- Store a value under a key. -/
def insert (m : SortedMap κ ν) (k : κ) (v : ν) : SortedMap κ ν := m.alter k fun _ => v

/-- The map of a list of entries; of two entries with one key the later one counts. -/
def ofList (l : List (κ × ν)) : SortedMap κ ν := l.foldl (fun m e => m.insert e.1 e.2) ∅

theorem lookup_alterList {k j : κ} {f : Option ν → ν} {l : List (κ × ν)}
    (hl : l.Pairwise (fun a b => compare a.1 b.1 = .lt)) :
    lookup j (alterList k f l) =
      if compare j k = .eq then some (f (lookup k l)) else lookup j l := by
  induction l with
  | nil => simp only [alterList, lookup]
  | cons e rest ih =>
    obtain ⟨he, hrest⟩ := List.pairwise_cons.1 hl
    simp only [alterList]
    split
    · rename_i h
      have hnone : lookup k (e :: rest) = none := by
        have : ∀ d ∈ e :: rest, compare k d.1 = .lt := fun d hd => by
          rcases List.mem_cons.1 hd with rfl | hd
          · exact h
          · exact Std.TransCmp.lt_trans h (he d hd)
        clear ih he hrest hl h
        generalize e :: rest = l at this
        induction l with
        | nil => rfl
        | cons d l ihl =>
          have hd := this d List.mem_cons_self
          rw [lookup, if_neg (by rw [hd]; decide)]
          exact ihl fun c hc => this c (List.mem_cons_of_mem _ hc)
      rw [hnone]
      simp only [lookup]
    · rename_i h
      have hj : compare j e.1 = .eq ↔ compare j k = .eq :=
        ⟨fun hje => Std.TransCmp.eq_trans hje (Std.OrientedCmp.eq_symm h),
          fun hjk => Std.TransCmp.eq_trans hjk h⟩
      by_cases hje : compare j e.1 = .eq
      · simp only [lookup, if_pos hje, if_pos (hj.1 hje), if_pos h]
      · simp only [lookup, if_neg hje, if_neg (mt hj.2 hje)]
    · rename_i h
      have hke : ¬ compare k e.1 = .eq := by rw [h]; decide
      simp only [lookup, ih hrest, if_neg hke]
      by_cases hje : compare j e.1 = .eq
      · have hjk : ¬ compare j k = .eq := fun hjk =>
          hke (Std.TransCmp.eq_trans (Std.OrientedCmp.eq_symm hjk) hje)
        simp only [if_pos hje, if_neg hjk]
      · simp only [if_neg hje]

/-- A look-up after changing one entry sees the new value under that key and
the old values elsewhere. -/
theorem get?_alter (m : SortedMap κ ν) (k j : κ) (f : Option ν → ν) :
    (m.alter k f).get? j = if compare j k = .eq then some (f (m.get? k)) else m.get? j :=
  lookup_alterList m.ascending

theorem get?_insert (m : SortedMap κ ν) (k j : κ) (v : ν) :
    (m.insert k v).get? j = if compare j k = .eq then some v else m.get? j :=
  get?_alter m k j _

end SortedMap

end Coverage
