/-
# Lines, line ranges and arcs

A line is an integer. Negative integers never name a real line: they stand for
the synthetic entry and exit of a code unit. An arc is a possible step from one
line to the next.
-/
import Coverage.SortedSet
import Coverage.SortedMap

namespace Coverage

/-- A set of lines. -/
abbrev LineSet := SortedSet Int

/-- A step from one line to another. -/
structure Arc where
  source : Int
  target : Int
deriving DecidableEq, Repr

namespace Arc

/-- Arcs are ordered by source line, then by target line. -/
instance : Ord Arc := ⟨compareLex (compareOn source) (compareOn target)⟩

instance : Std.TransOrd Arc :=
  inferInstanceAs (Std.TransCmp (compareLex (compareOn source) (compareOn target)))

instance : Std.LawfulEqOrd Arc where
  compare_self :=
    (inferInstance : Std.ReflCmp (compareLex (compareOn source) (compareOn target))).compare_self
  eq_of_compare {a b} h := by
    obtain ⟨h₁, h₂⟩ := compareLex_eq_eq.1 h
    have hs : a.source = b.source := Std.LawfulEqOrd.eq_of_compare h₁
    have ht : a.target = b.target := Std.LawfulEqOrd.eq_of_compare h₂
    cases a; cases b; cases hs; cases ht; rfl

end Arc

/-- A set of arcs. -/
abbrev ArcSet := SortedSet Arc

/-- How many exits each line has. -/
abbrev ExitCounts := SortedMap Int Nat

/-- For every real line that starts an arc, the number of lines it can go to. -/
def ArcSet.exitCounts (arcs : ArcSet) : ExitCounts :=
  arcs.toList.foldl
    (fun counts arc =>
      if 0 ≤ arc.source then counts.alter arc.source (fun n => n.getD 0 + 1) else counts) ∅

/-- An inclusive range of lines. -/
structure LineRange where
  first : Int
  last : Int
deriving DecidableEq, Repr

namespace LineRange

/-- The answer "no measurable line ran". -/
def unmeasured : LineRange := ⟨-1, -1⟩

/-- The range of exactly one line. -/
def single (line : Int) : LineRange := ⟨line, line⟩

/-- Whether the range is the answer "no measurable line ran". -/
def isUnmeasured (r : LineRange) : Bool := r == unmeasured

/-- The lines from `first` to `last`; none when `last` lies below `first`. -/
def span (first last : Int) : LineSet :=
  ⟨(List.range (last - first + 1).toNat).map fun (n : Nat) => first + (n : Int), by
    rw [List.pairwise_map]
    exact List.pairwise_lt_range.imp fun h => by rw [Int.compare_eq_lt]; omega⟩

/-- Every line of the range, none for the unmeasured one. -/
def lines (r : LineRange) : LineSet := if r.isUnmeasured then ∅ else span r.first r.last

end LineRange

end Coverage
