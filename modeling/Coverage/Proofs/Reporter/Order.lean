/-
# Reporters in the order of their file names

Reporters are compared by the texts of their file names and by nothing else, so reporters
with equal names are equal to every comparison, whatever they answer. Names are compared byte
by byte, which puts them in the order of their code points. Recorded data is looked up by the
components of a name. This is coarser: one text is always one key, but two spellings of a
file name are one key and two reporters, and the two orders need not agree.
-/
import Coverage.Analysis
import Coverage.Proofs.Data.Measurements
import Coverage.Proofs.Order.Sorting
import Coverage.Proofs.Text.ByteOrder

namespace Coverage

namespace CoverageData

variable {p q : Path}

/-- Names that are one key find one file. -/
theorem parts_congr (h : compare p q = .eq) (data : CoverageData) : data.parts p = data.parts q := by
  rw [parts, parts, file?, file?, SortedMap.get?_congr h]

theorem lines_congr (h : compare p q = .eq) (data : CoverageData) : data.lines p = data.lines q := by
  rw [lines, lines, parts_congr h]

theorem arcs_congr (h : compare p q = .eq) (data : CoverageData) : data.arcs p = data.arcs q := by
  rw [arcs, arcs, parts_congr h]

end CoverageData

namespace Reporter

variable {r s t : Reporter}

instance : Std.TransCmp compareNames :=
  inferInstanceAs (Std.TransCmp (compareOn fun r : Reporter => Text.bytes r.filename.text))

theorem compareNames_eq (r s : Reporter) :
    r.compareNames s = Text.compareCodePoints r.filename.text s.filename.text :=
  Text.compareBytes_eq _ _

theorem sameName_iff : r.sameName s = true ↔ r.filename.text = s.filename.text := beq_iff_eq

theorem compareNames_eq_eq_iff : r.compareNames s = .eq ↔ r.sameName s = true := by
  rw [sameName_iff, compareNames, Text.compareBytes_eq_eq_iff]

/-- Reporters that compare equal are looked up under one key. -/
theorem compare_filename (h : r.compareNames s = .eq) : compare r.filename s.filename = .eq := by
  have hname : r.filename.text = s.filename.text := sameName_iff.1 (compareNames_eq_eq_iff.1 h)
  have hpath : r.filename = s.filename := congrArg Path.mk hname
  rw [hpath]
  exact Std.ReflCmp.compare_self

/-- Reporters with a name in common stay in the order in which they were. -/
theorem filter_sort (r : Reporter) (reporters : List Reporter) :
    (sort reporters).filter r.sameName = reporters.filter r.sameName := by
  refine filter_sortBy reporters fun s t hs ht => ?_
  rw [compareNames_eq_eq_iff, sameName_iff, ← sameName_iff.1 hs, sameName_iff.1 ht]

/-- Reporters are totally ordered by the code points of their file names, and no other answer
of theirs has a part in it. Equal ones are those with one name, which analyze the same
recorded data. Sorting puts reporters in this order, and leaves those with one name in the
order in which they were. -/
theorem reporters_are_ordered_by_name :
    (∀ r s : Reporter,
      r.compareNames s = Text.compareCodePoints r.filename.text s.filename.text ∧
      r.compareNames r = .eq ∧
      s.compareNames r = (r.compareNames s).swap ∧
      (r.compareNames s ≠ .gt ∨ s.compareNames r ≠ .gt) ∧
      (r.compareNames s ≠ .gt → s.compareNames r ≠ .gt → r.sameName s = true) ∧
      (∀ t : Reporter, r.compareNames s ≠ .gt → s.compareNames t ≠ .gt →
        r.compareNames t ≠ .gt) ∧
      (r.compareNames s = .eq ↔ r.sameName s = true) ∧
      (r.sameName s = true ↔ r.filename.text = s.filename.text)) ∧
    (∀ reporters : List Reporter,
      (sort reporters).Perm reporters ∧ IsAscending compareNames (sort reporters) ∧
      ∀ r : Reporter, (sort reporters).filter r.sameName = reporters.filter r.sameName) ∧
    ∀ r s : Reporter, r.compareNames s = .eq →
      compare r.filename s.filename = .eq ∧
      ∀ data : CoverageData,
        Analysis.compute r data =
          Analysis.ofRecorded r (data.lines s.filename) (data.arcs s.filename) := by
  refine ⟨fun r s => ?order, fun reporters => ?sorting, fun r s h => ?lookups⟩
  case order =>
    refine ⟨compareNames_eq r s, Std.ReflCmp.compare_self, Std.OrientedCmp.eq_swap,
      ne_gt_total r s, fun hrs hsr => ?_, fun t hrs hst => ne_gt_trans hrs hst,
      compareNames_eq_eq_iff, sameName_iff⟩
    exact compareNames_eq_eq_iff.1 (eq_of_ne_gt hrs hsr)
  case sorting =>
    exact ⟨sortBy_perm compareNames reporters, isAscending_sortBy reporters,
      fun r => filter_sort r reporters⟩
  case lookups =>
    have hkey := compare_filename h
    refine ⟨hkey, fun data => ?_⟩
    rw [Analysis.compute, CoverageData.lines_congr hkey, CoverageData.arcs_congr hkey]

/-- Two spellings of one name are one key of recorded data and two names of reporters, and a
name that comes first in the one order comes last in the other. -/
example :
    compare (⟨"/site//a/b"⟩ : Path) ⟨"/site/a/b"⟩ = .eq ∧
      Text.compareBytes "/site//a/b" "/site/a/b" = .lt ∧
      compare (⟨"/site/a/b"⟩ : Path) ⟨"/site/a.b"⟩ = .lt ∧
      Text.compareBytes "/site/a/b" "/site/a.b" = .gt := by
  decide +kernel

namespace Spellings

/-- A reporter of a file in an empty tree. -/
def named (filename : String) (lines : LineSet) : Reporter where
  host := ⟨∅, []⟩
  filename := ⟨filename⟩
  lines := .ok lines

/-- A dot comes before a separator, which comes before every letter. Reporters with one name
are equal although they know different lines, and stay as they are when they are sorted. -/
theorem pages_are_ordered :
    ((named "/site/a.b" ∅).compareNames (named "/site/a/b" ∅) ≠ .gt ∧
        (named "/site/a/b" ∅).compareNames (named "/site/é" ∅) ≠ .gt ∧
        (named "/site/a.b" ∅).compareNames (named "/site/é" ∅) ≠ .gt) ∧
      ((named "/site/é" {1}).compareNames (named "/site/é" {2}) = .eq ∧
        (sort [named "/site/é" {2}, named "/site/a/b" ∅, named "/site/é" {1}]).filter
            (named "/site/é" ∅).sameName = [named "/site/é" {2}, named "/site/é" {1}]) ∧
      Analysis.compute (named "/site/é" {1}) ∅ =
        Analysis.ofRecorded (named "/site/é" {1}) ∅ ∅ := by
  obtain ⟨horder, hsorting, hlookups⟩ := reporters_are_ordered_by_name
  obtain ⟨-, -, -, -, -, htrans, -⟩ := horder (named "/site/a.b" ∅) (named "/site/a/b" ∅)
  have hdot : (named "/site/a.b" ∅).compareNames (named "/site/a/b" ∅) ≠ .gt := by decide +kernel
  have hletter : (named "/site/a/b" ∅).compareNames (named "/site/é" ∅) ≠ .gt := by decide +kernel
  have hequal : (named "/site/é" {1}).compareNames (named "/site/é" {2}) = .eq := by decide +kernel
  obtain ⟨-, -, hstays⟩ := hsorting [named "/site/é" {2}, named "/site/a/b" ∅, named "/site/é" {1}]
  refine ⟨⟨hdot, hletter, htrans _ hdot hletter⟩, ⟨hequal, ?_⟩, (hlookups _ _ hequal).2 ∅⟩
  rw [hstays]
  rfl

end Spellings

end Reporter

end Coverage
