/-
# Finite sets in ascending order

A `SortedSet α` is a strictly ascending list, so two sets with the same members
are the same value: equality of recorded lines, statements or arcs needs no
quotient and no permutation. Order and freedom from duplicates are part of the
type.

The view is membership. Each operation has one lemma saying which elements its
result holds; `SortedSet.ext` then decides every equation between sets.

`sortBy` puts a list in the order of a comparison and keeps repeated elements.
-/

namespace Coverage

/-- A finite set, kept as the strictly ascending list of its elements. -/
structure SortedSet (α : Type) [Ord α] where
  /-- The elements in ascending order. -/
  toList : List α
  /-- Each element is strictly below all that follow it. -/
  ascending : toList.Pairwise (fun a b => compare a b = .lt)

namespace SortedSet

variable {α : Type} [Ord α]

instance [DecidableEq α] : DecidableEq (SortedSet α) := fun s t =>
  decidable_of_iff (s.toList = t.toList)
    ⟨fun h => by cases s; cases t; cases h; rfl, fun h => h ▸ rfl⟩

instance [Repr α] : Repr (SortedSet α) := ⟨fun s n => reprPrec s.toList n⟩

instance : Membership α (SortedSet α) := ⟨fun s a => a ∈ s.toList⟩

instance [DecidableEq α] (a : α) (s : SortedSet α) : Decidable (a ∈ s) :=
  inferInstanceAs (Decidable (a ∈ s.toList))

instance : EmptyCollection (SortedSet α) := ⟨⟨[], .nil⟩⟩

instance : Inhabited (SortedSet α) := ⟨∅⟩

instance : Singleton α (SortedSet α) := ⟨fun a => ⟨[a], List.pairwise_singleton _ _⟩⟩

theorem mem_def {a : α} {s : SortedSet α} : a ∈ s ↔ a ∈ s.toList := Iff.rfl

@[simp]
theorem toList_empty : (∅ : SortedSet α).toList = [] := rfl

@[simp]
theorem not_mem_empty (a : α) : a ∉ (∅ : SortedSet α) := List.not_mem_nil

@[simp]
theorem mem_singleton {a b : α} : b ∈ ({a} : SortedSet α) ↔ b = a := List.mem_singleton

/-- The number of elements. -/
def size (s : SortedSet α) : Nat := s.toList.length

/-- Whether there is no element. -/
def isEmpty (s : SortedSet α) : Bool := s.toList.isEmpty

/-- The elements that satisfy `p`. -/
def filter (p : α → Bool) (s : SortedSet α) : SortedSet α :=
  ⟨s.toList.filter p, s.ascending.filter p⟩

@[simp]
theorem mem_filter {p : α → Bool} {s : SortedSet α} {a : α} :
    a ∈ s.filter p ↔ a ∈ s ∧ p a = true := List.mem_filter

/-! ## Intersection and difference -/

/-- The elements of both sets. -/
def inter [DecidableEq α] (s t : SortedSet α) : SortedSet α := s.filter (· ∈ t)

instance [DecidableEq α] : Inter (SortedSet α) := ⟨inter⟩

/-- The elements of the first set that the second does not hold. -/
def sdiff [DecidableEq α] (s t : SortedSet α) : SortedSet α := s.filter (· ∉ t)

instance [DecidableEq α] : SDiff (SortedSet α) := ⟨sdiff⟩

@[simp]
theorem mem_inter [DecidableEq α] {a : α} {s t : SortedSet α} :
    a ∈ s ∩ t ↔ a ∈ s ∧ a ∈ t := by
  change a ∈ s.filter (· ∈ t) ↔ _
  simp

@[simp]
theorem mem_sdiff [DecidableEq α] {a : α} {s t : SortedSet α} :
    a ∈ s \ t ↔ a ∈ s ∧ a ∉ t := by
  change a ∈ s.filter (· ∉ t) ↔ _
  simp

theorem not_lt_self [Std.ReflOrd α] (a : α) : compare a a ≠ .lt := by
  have h : compare a a = .eq := Std.ReflOrd.compare_self
  rw [h]
  decide

theorem nodup [Std.ReflOrd α] (s : SortedSet α) : s.toList.Nodup := by
  rw [List.nodup_iff_pairwise_ne]
  refine s.ascending.imp fun {a b} h => ?_
  rintro rfl
  exact not_lt_self a h

/-! ## Insertion and union -/

/-- Insert into an ascending list; an element already there is left alone. -/
def insertList (a : α) : List α → List α
  | [] => [a]
  | b :: rest =>
    match compare a b with
    | .lt => a :: b :: rest
    | .eq => b :: rest
    | .gt => b :: insertList a rest

theorem mem_insertList [Std.LawfulEqOrd α] {a c : α} {l : List α} :
    c ∈ insertList a l ↔ c = a ∨ c ∈ l := by
  induction l with
  | nil => simp [insertList]
  | cons b rest ih =>
    simp only [insertList]
    split
    · simp
    · rename_i h
      have : a = b := Std.LawfulEqOrd.eq_of_compare h
      subst this
      simp
    · simp only [List.mem_cons, ih]
      constructor
      · rintro (h | h | h) <;> simp [h]
      · rintro (h | h | h) <;> simp [h]

theorem forall_lt_insertList {a b : α} {l : List α} (hab : compare b a = .lt)
    (hl : ∀ c ∈ l, compare b c = .lt) : ∀ c ∈ insertList a l, compare b c = .lt := by
  induction l with
  | nil =>
    intro c hc
    simp only [insertList, List.mem_singleton] at hc
    exact hc ▸ hab
  | cons d rest ih =>
    intro c hc
    simp only [insertList] at hc
    split at hc
    · rcases List.mem_cons.1 hc with rfl | hc
      · exact hab
      · exact hl c hc
    · exact hl c hc
    · rcases List.mem_cons.1 hc with rfl | hc
      · exact hl _ List.mem_cons_self
      · exact ih (fun c hc => hl c (List.mem_cons_of_mem _ hc)) c hc

section Ordered

variable [Std.TransOrd α]

theorem ascending_insertList {a : α} {l : List α}
    (hl : l.Pairwise (fun a b => compare a b = .lt)) :
    (insertList a l).Pairwise (fun a b => compare a b = .lt) := by
  induction l with
  | nil => exact List.pairwise_singleton _ _
  | cons b rest ih =>
    obtain ⟨hb, hrest⟩ := List.pairwise_cons.1 hl
    simp only [insertList]
    split
    · rename_i h
      exact List.pairwise_cons.2 ⟨fun c hc => by
        rcases List.mem_cons.1 hc with rfl | hc
        · exact h
        · exact Std.TransCmp.lt_trans h (hb c hc), hl⟩
    · exact hl
    · rename_i h
      exact List.pairwise_cons.2
        ⟨forall_lt_insertList (Std.OrientedCmp.lt_of_gt h) hb, ih hrest⟩

/-- Add one element. -/
def insert (a : α) (s : SortedSet α) : SortedSet α :=
  ⟨insertList a s.toList, ascending_insertList s.ascending⟩

instance : Insert α (SortedSet α) := ⟨insert⟩

/-- The set of the elements of a list, in any order and with any repetition. -/
def ofList (l : List α) : SortedSet α := l.foldr insert ∅

/-- The elements of either set. -/
def union (s t : SortedSet α) : SortedSet α := s.toList.foldr insert t

instance : Union (SortedSet α) := ⟨union⟩

variable [Std.LawfulEqOrd α]

@[simp]
theorem mem_insert {a b : α} {s : SortedSet α} : b ∈ Insert.insert a s ↔ b = a ∨ b ∈ s :=
  mem_insertList

theorem mem_foldr_insert {a : α} {l : List α} {s : SortedSet α} :
    a ∈ l.foldr insert s ↔ a ∈ l ∨ a ∈ s := by
  induction l with
  | nil => simp
  | cons b l ih =>
    have h : (b :: l).foldr insert s = Insert.insert b (l.foldr insert s) := rfl
    rw [h, mem_insert, ih, List.mem_cons, or_assoc]

@[simp]
theorem mem_ofList {a : α} {l : List α} : a ∈ ofList l ↔ a ∈ l := by
  simp [ofList, mem_foldr_insert]

@[simp]
theorem mem_union {a : α} {s t : SortedSet α} : a ∈ s ∪ t ↔ a ∈ s ∨ a ∈ t :=
  mem_foldr_insert

/-! ## Extensionality -/

/-- Two ascending lists with the same members are equal. -/
theorem eq_of_mem_iff {l k : List α} (hl : l.Pairwise (fun a b => compare a b = .lt))
    (hk : k.Pairwise (fun a b => compare a b = .lt)) (h : ∀ a, a ∈ l ↔ a ∈ k) : l = k := by
  induction l generalizing k with
  | nil =>
    cases k with
    | nil => rfl
    | cons b k => exact absurd ((h b).2 List.mem_cons_self) List.not_mem_nil
  | cons a l ih =>
    cases k with
    | nil => exact absurd ((h a).1 List.mem_cons_self) List.not_mem_nil
    | cons b k =>
      obtain ⟨hal, htl⟩ := List.pairwise_cons.1 hl
      obtain ⟨hbk, htk⟩ := List.pairwise_cons.1 hk
      have hab : a = b := by
        rcases List.mem_cons.1 ((h a).1 List.mem_cons_self) with hab | hak
        · exact hab
        · rcases List.mem_cons.1 ((h b).2 List.mem_cons_self) with hba | hbl
          · exact hba.symm
          · exact absurd (Std.TransCmp.lt_trans (hbk a hak) (hal b hbl)) (not_lt_self b)
      subst hab
      refine congrArg _ (ih htl htk fun c => ⟨fun hc => ?_, fun hc => ?_⟩)
      · rcases List.mem_cons.1 ((h c).1 (List.mem_cons_of_mem _ hc)) with rfl | hc'
        · exact absurd (hal _ hc) (not_lt_self _)
        · exact hc'
      · rcases List.mem_cons.1 ((h c).2 (List.mem_cons_of_mem _ hc)) with rfl | hc'
        · exact absurd (hbk _ hc) (not_lt_self _)
        · exact hc'

/-- A set is determined by its members. -/
@[ext]
theorem ext {s t : SortedSet α} (h : ∀ a, a ∈ s ↔ a ∈ t) : s = t := by
  have hl : s.toList = t.toList := eq_of_mem_iff s.ascending t.ascending h
  cases s; cases t; cases hl; rfl

end Ordered

end SortedSet

/-- The elements of a list in ascending order; those that compare equal stay in the order
in which they were. -/
def sortBy {α : Type} (cmp : α → α → Ordering) (l : List α) : List α :=
  l.mergeSort fun a b => cmp a b != .gt

end Coverage
