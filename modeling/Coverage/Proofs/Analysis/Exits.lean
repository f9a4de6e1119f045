/-
# Exits and branch lines

How many exits a line has is counted in one pass over the possible arcs. Branch lines are
chosen by these counts, once when a reporter is asked for them and once from what an
analysis has kept, and the branches that an analysis counts are arcs again. Here the
three are compared. The pass counts the lines that each line can go to, both choices are
the same, and the exits of the branch lines are the branches and the arcs to lines that
are left out.

A reporter may count exits in a way of its own. Its branch lines are then still those of
the analysis as long as it knows an arc, because the analysis does not ask for exits
otherwise.
-/
import Coverage.Proofs.Analysis.Accounting
import Mathlib.Algebra.Ring.Nat

namespace Coverage

open Analysis (targetsFrom mem_targetsFrom)

/-! ## Targets -/

namespace ArcSet

/-- The lines that arcs from one line lead to. -/
def targets (arcs : ArcSet) (line : Int) : LineSet :=
  .ofList ((arcs.filter fun arc => arc.source = line).toList.map Arc.target)

variable {arcs : ArcSet} {line target : Int}

theorem mem_targets : target ∈ arcs.targets line ↔ (⟨line, target⟩ : Arc) ∈ arcs := by
  rw [targets, SortedSet.mem_ofList]
  exact mem_targetsFrom

/-- Arcs from one line are in the order of their targets. -/
theorem ascending_targetsFrom (arcs : ArcSet) (line : Int) :
    (targetsFrom arcs.toList line).Pairwise fun s t => compare s t = .lt := by
  rw [targetsFrom, List.pairwise_map, List.pairwise_filter]
  refine arcs.ascending.imp fun {a b} h ha hb => ?_
  have hlex : (compare a.source b.source).then (compare a.target b.target) = .lt := h
  have hsame : compare a.source b.source = .eq := by
    rw [of_decide_eq_true ha, of_decide_eq_true hb]
    exact Std.ReflCmp.compare_self
  rw [hsame] at hlex
  exact hlex

/-- No target stands twice among those of one line. -/
theorem size_targets (arcs : ArcSet) (line : Int) :
    (arcs.targets line).size = (targetsFrom arcs.toList line).length := by
  have hlist : (arcs.targets line).toList = targetsFrom arcs.toList line :=
    SortedSet.eq_of_mem_iff (arcs.targets line).ascending (ascending_targetsFrom arcs line)
      fun target => mem_targets.trans mem_targetsFrom.symm
  rw [SortedSet.size, hlist]

theorem mem_sources_iff : line ∈ arcs.sources ↔ targetsFrom arcs.toList line ≠ [] := by
  rw [mem_sources, ne_eq, List.eq_nil_iff_forall_not_mem, not_forall_not]
  exact exists_congr fun target => mem_targetsFrom.symm

/-! ## Counting -/

/-- Count one arc as an exit of the line that it starts from. -/
def countArc (counts : ExitCounts) (arc : Arc) : ExitCounts :=
  if 0 ≤ arc.source then counts.alter arc.source (fun n => n.getD 0 + 1) else counts

/-- Count the exits over further arcs. -/
def countInto (counts : ExitCounts) (arcs : List Arc) : ExitCounts := arcs.foldl countArc counts

theorem exitCounts_eq (arcs : ArcSet) : arcs.exitCounts = countInto ∅ arcs.toList := rfl

/-- An arc counts for its source alone, and there only if it is a real line. -/
theorem get?_countArc (counts : ExitCounts) (arc : Arc) (line : Int) :
    (countArc counts arc).get? line =
      if 0 ≤ line ∧ arc.source = line then some ((counts.get? line).getD 0 + 1)
      else counts.get? line := by
  rw [countArc]
  by_cases hsource : arc.source = line
  · rw [hsource]
    by_cases hline : 0 ≤ line
    · rw [if_pos hline, if_pos ⟨hline, rfl⟩, SortedMap.get?_alter,
        if_pos Std.ReflCmp.compare_self]
    · rw [if_neg hline, if_neg fun h => hline h.1]
  · have hother : ¬ (0 ≤ line ∧ arc.source = line) := fun h => hsource h.2
    rw [if_neg hother]
    split
    · have hcompare : ¬ compare line arc.source = .eq := fun h =>
        hsource (Std.LawfulEqOrd.eq_of_compare h).symm
      rw [SortedMap.get?_alter, if_neg hcompare]
    · rfl

theorem targetsFrom_cons (arc : Arc) (arcs : List Arc) (line : Int) :
    targetsFrom (arc :: arcs) line =
      if arc.source = line then arc.target :: targetsFrom arcs line else targetsFrom arcs line := by
  by_cases hsource : arc.source = line
  · simp [targetsFrom, hsource]
  · simp [targetsFrom, hsource]

theorem get?_countInto (counts : ExitCounts) (arcs : List Arc) (line : Int) :
    (countInto counts arcs).get? line =
      if 0 ≤ line ∧ targetsFrom arcs line ≠ [] then
        some ((counts.get? line).getD 0 + (targetsFrom arcs line).length)
      else counts.get? line := by
  induction arcs generalizing counts with
  | nil => simp [countInto, targetsFrom]
  | cons arc arcs ih =>
    rw [countInto, List.foldl_cons, ← countInto, ih, get?_countArc, targetsFrom_cons]
    by_cases hcounts : 0 ≤ line ∧ arc.source = line
    · have hstarts : 0 ≤ line ∧ arc.target :: targetsFrom arcs line ≠ [] :=
        ⟨hcounts.1, List.cons_ne_nil _ _⟩
      rw [if_pos hcounts, if_pos hcounts.2, if_pos hstarts, Option.getD_some, List.length_cons]
      by_cases hlast : targetsFrom arcs line = []
      · rw [if_neg fun h => h.2 hlast, hlast]
        rfl
      · rw [if_pos ⟨hcounts.1, hlast⟩, Nat.add_assoc, Nat.add_comm 1]
    · rw [if_neg hcounts]
      by_cases hsource : arc.source = line
      · have hline : ¬ 0 ≤ line := fun hline => hcounts ⟨hline, hsource⟩
        rw [if_neg fun h => hline h.1, if_neg fun h => hline h.1]
      · rw [if_neg hsource]

/-- A real line that starts an arc has as many exits as it has targets. Other lines have
no count. -/
theorem get?_exitCounts (arcs : ArcSet) (line : Int) :
    arcs.exitCounts.get? line =
      if 0 ≤ line ∧ line ∈ arcs.sources then some (arcs.targets line).size else none := by
  rw [exitCounts_eq, get?_countInto, SortedMap.get?_empty, Option.getD_none, Nat.zero_add,
    size_targets]
  exact if_congr (and_congr_right fun _ => mem_sources_iff.symm) rfl rfl

/-- A count is of a real line, and is the number of its targets. -/
theorem of_get?_exitCounts {n : Nat} (h : arcs.exitCounts.get? line = some n) :
    0 ≤ line ∧ (arcs.targets line).size = n := by
  rw [get?_exitCounts] at h
  split at h
  · next hline => exact ⟨hline.1, Option.some.inj h⟩
  · cases h

/-- The lines with a count are the real ones that start an arc. -/
theorem keys_exitCounts (arcs : ArcSet) :
    arcs.exitCounts.keys = (arcs.sources.filter (0 ≤ ·)).toList := by
  have hkeys : arcs.exitCounts.keys.Pairwise fun a b => compare a b = .lt := by
    rw [SortedMap.keys, List.pairwise_map]
    exact arcs.exitCounts.ascending
  apply SortedSet.eq_of_mem_iff hkeys (SortedSet.ascending _)
  intro line
  rw [SortedMap.mem_keys_iff, get?_exitCounts, ← SortedSet.mem_def, SortedSet.mem_filter,
    decide_eq_true_iff]
  split
  · next h => exact iff_of_true rfl h.symm
  · next h => exact iff_of_false Bool.false_ne_true fun hline => h hline.symm

/-- Branch lines are the real ones with several targets, those in `noBranch` apart. -/
theorem mem_branchLines_exitCounts {noBranch : LineSet} :
    line ∈ arcs.exitCounts.branchLines noBranch ↔
      0 ≤ line ∧ 2 ≤ (arcs.targets line).size ∧ line ∉ noBranch := by
  rw [ExitCounts.mem_branchLines, ← and_assoc]
  refine and_congr_left fun _ => ⟨fun h => ?_, fun h => ?_⟩
  · obtain ⟨n, hn, hcount⟩ := h
    obtain ⟨hline, rfl⟩ := of_get?_exitCounts hcount
    exact ⟨hline, hn⟩
  · obtain ⟨hline, hseveral⟩ := h
    have hsource : line ∈ arcs.sources := by
      rw [mem_sources_iff, ← List.length_pos_iff, ← size_targets]
      omega
    exact ⟨_, hseveral, (arcs.get?_exitCounts line).trans (if_pos ⟨hline, hsource⟩)⟩

/-! ## Arcs from some lines -/

/-- The arcs from some lines, counted line by line. -/
theorem sum_length_targetsFrom {lines : List Int} (hlines : lines.Nodup) (arcs : List Arc) :
    (lines.map fun line => (targetsFrom arcs line).length).sum =
      (arcs.filter fun arc => arc.source ∈ lines).length := by
  induction lines with
  | nil => simp
  | cons line lines ih =>
    obtain ⟨hnew, hrest⟩ := List.nodup_cons.1 hlines
    have hfirst : ((arcs.filter fun arc => arc.source ∈ line :: lines).filter
        fun arc => arc.source = line).length = (targetsFrom arcs line).length := by
      rw [targetsFrom, List.length_map, List.filter_filter]
      congr 1
      apply List.filter_congr
      intro arc _
      by_cases hsource : arc.source = line
      · simp [hsource]
      · simp [hsource]
    have hothers : (arcs.filter fun arc => arc.source ∈ line :: lines).filter
        (fun arc => !decide (arc.source = line)) =
          arcs.filter fun arc => arc.source ∈ lines := by
      rw [List.filter_filter]
      apply List.filter_congr
      intro arc _
      by_cases hsource : arc.source = line
      · simp [hsource, hnew]
      · simp [hsource]
    calc ((line :: lines).map fun line => (targetsFrom arcs line).length).sum
        = (targetsFrom arcs line).length +
            (arcs.filter fun arc => arc.source ∈ lines).length := by
          rw [List.map_cons, List.sum_cons, ih hrest]
      _ = (arcs.filter fun arc => arc.source ∈ line :: lines).length := by
          rw [← hfirst, ← hothers, ← List.length_eq_length_filter_add]

/-- The exits of branch lines are the arcs from them. -/
theorem sum_exitCounts (arcs : ArcSet) (noBranch : LineSet) :
    ((arcs.exitCounts.branchLines noBranch).toList.map
        fun line => (arcs.exitCounts.get? line).getD 0).sum =
      (arcs.filter fun arc => arc.source ∈ arcs.exitCounts.branchLines noBranch).size := by
  have hcounts : ∀ line ∈ (arcs.exitCounts.branchLines noBranch).toList,
      (arcs.exitCounts.get? line).getD 0 = (targetsFrom arcs.toList line).length := by
    intro line hline
    obtain ⟨⟨n, -, hcount⟩, -⟩ := ExitCounts.mem_branchLines.1 (SortedSet.mem_def.2 hline)
    rw [hcount, Option.getD_some, ← size_targets, (of_get?_exitCounts hcount).2]
  rw [List.map_congr_left hcounts,
    sum_length_targetsFrom (arcs.exitCounts.branchLines noBranch).nodup]
  rfl

end ArcSet

/-! ## Branch lines of a reporter and of an analysis -/

/-- The reporter counts exits over its arcs. -/
def Reporter.CountsArcs (reporter : Reporter) : Prop :=
  reporter.exitCounts = reporter.arcs.map ArcSet.exitCounts

namespace Analysis

section Recorded

variable {reporter : Reporter} {recordedLines : LineSet} {recordedArcs : ArcSet} {a : Analysis}
  {counts : ExitCounts} {noBranch : LineSet}

theorem excludedLines_eq_of_ofRecorded
    (h : ofRecorded reporter recordedLines recordedArcs = .ok a) :
    reporter.excludedLines = .ok a.excluded := by
  obtain ⟨_, _, _, _, _, -, hexcluded, -, -, -, rfl⟩ := ofRecorded_eq_ok_iff.1 h
  exact hexcluded

theorem exitCounts_eq_of_countsArcs (hdefault : reporter.CountsArcs) {arcs : ArcSet}
    (harcs : reporter.arcs = .ok arcs) (hcounts : reporter.exitCounts = .ok counts) :
    counts = arcs.exitCounts := by
  rw [Reporter.CountsArcs, harcs, hcounts] at hdefault
  exact Except.ok.inj hdefault

/-- Where the exits are those of the arcs, or the analysis asked for them, it has the
branch lines that the exits give. -/
theorem branchLines_eq_of_ofRecorded
    (h : ofRecorded reporter recordedLines recordedArcs = .ok a)
    (hcounts : reporter.exitCounts = .ok counts)
    (hnoBranch : reporter.noBranchLines = .ok noBranch)
    (hasked : reporter.CountsArcs ∨ a.possibleArcs.isEmpty = false) :
    a.branchLines = counts.branchLines noBranch := by
  obtain ⟨_, _, arcs, _, _, -, -, harcs, hsome, hnone, rfl⟩ := ofRecorded_eq_ok_iff.1 h
  by_cases hempty : arcs.isEmpty = true
  · obtain ⟨rfl, rfl⟩ := hnone hempty
    have hdefault : reporter.CountsArcs := by
      apply hasked.resolve_right
      show ¬ arcs.isEmpty = false
      rw [hempty]
      decide
    have hcounted := exitCounts_eq_of_countsArcs hdefault harcs hcounts
    obtain rfl : arcs = ∅ := by
      ext arc
      exact iff_of_false (SortedSet.isEmpty_iff.1 hempty arc) (SortedSet.not_mem_empty arc)
    rw [hcounted]
    rfl
  · have hfull := Bool.eq_false_iff.2 hempty
    obtain rfl := Except.ok.inj (hcounts.symm.trans (hsome hfull).1)
    obtain rfl := Except.ok.inj (hnoBranch.symm.trans (hsome hfull).2)
    rfl

end Recorded

/-- The possible arcs from branch lines to lines that are left out. -/
def leftOutBranches (a : Analysis) : ArcSet :=
  a.possibleArcs.filter fun arc => arc.source ∈ a.branchLines && arc.target ∈ a.excluded

/-- An arc from a branch line is a branch, or leads to a line that is left out. -/
theorem arcsFromBranchLines_isSplitInto (a : Analysis) :
    (a.possibleArcs.filter fun arc => arc.source ∈ a.branchLines).IsSplitInto
      [a.branchArcs.toList, a.leftOutBranches.toList] := by
  apply SortedSet.isSplitInto_pair fun arc => arc.target ∉ a.excluded
  · intro arc
    rw [mem_branchArcs, SortedSet.mem_filter, decide_eq_true_iff, and_assoc]
  · intro arc
    simp [leftOutBranches, and_assoc]

/-- Where branch lines are those that the possible arcs give, their exits are the branches
and the arcs to lines that are left out. -/
theorem LooksAtArcs.sum_exitCounts {a : Analysis} (ha : a.LooksAtArcs) {noBranch : LineSet}
    (hlines : a.branchLines = a.possibleArcs.exitCounts.branchLines noBranch) :
    (a.branchLines.toList.map fun line => (a.possibleArcs.exitCounts.get? line).getD 0).sum =
      a.numbers.branches + a.leftOutBranches.size := by
  have harcs : (a.branchLines.toList.map fun line =>
      (a.possibleArcs.exitCounts.get? line).getD 0).sum =
        (a.possibleArcs.filter fun arc => arc.source ∈ a.branchLines).size := by
    rw [hlines]
    exact a.possibleArcs.sum_exitCounts noBranch
  rw [harcs, a.arcsFromBranchLines_isSplitInto.size_eq, ha.branches_numbers]
  simp [SortedSet.size]

/-- Exits are counted as the distinct targets of real lines. A reporter and its analysis
have the same branch lines if the exits are those of the arcs, or an arc is known. In the
first case these are the real lines with several targets that are not excused, and their
exits are the branches together with the arcs from them to lines that are left out. -/
theorem exits_and_branch_lines_agree :
    (∀ arcs : ArcSet, arcs.exitCounts.keys = (arcs.sources.filter (0 ≤ ·)).toList ∧
      ∀ line ∈ arcs.exitCounts.keys,
        arcs.exitCounts.get? line = some (arcs.targets line).size) ∧
    ∀ (reporter : Reporter) (counts : ExitCounts) (noBranch recordedLines : LineSet)
      (recordedArcs : ArcSet), reporter.Answers → reporter.exitCounts = .ok counts →
      reporter.noBranchLines = .ok noBranch →
      ∃ a, ofRecorded reporter recordedLines recordedArcs = .ok a ∧
        reporter.arcs = .ok a.possibleArcs ∧ reporter.excludedLines = .ok a.excluded ∧
        (reporter.CountsArcs ∨ a.possibleArcs.isEmpty = false →
          reporter.branchLines = .ok a.branchLines) ∧
        (reporter.CountsArcs →
          (∀ line, line ∈ a.branchLines ↔
            0 ≤ line ∧ 2 ≤ (a.possibleArcs.targets line).size ∧ line ∉ noBranch) ∧
          (a.branchLines.toList.map fun line => (counts.get? line).getD 0).sum =
            a.numbers.branches + a.leftOutBranches.size) := by
  refine ⟨fun arcs => ⟨arcs.keys_exitCounts, fun line hline => ?_⟩, ?_⟩
  · rw [arcs.keys_exitCounts, ← SortedSet.mem_def, SortedSet.mem_filter,
      decide_eq_true_iff] at hline
    rw [arcs.get?_exitCounts, if_pos hline.symm]
  intro reporter counts noBranch recordedLines recordedArcs hanswers hcounts hnoBranch
  obtain ⟨a, ha⟩ := exists_ofRecorded_iff.2 hanswers
  have harcs := arcs_eq_of_ofRecorded ha
  refine ⟨a, ha, harcs, excludedLines_eq_of_ofRecorded ha, fun hasked => ?_,
    fun hdefault => ?_⟩
  · rw [branchLines_eq_of_ofRecorded ha hcounts hnoBranch hasked, Reporter.branchLines,
      hnoBranch, hcounts]
    rfl
  · have hlines := branchLines_eq_of_ofRecorded ha hcounts hnoBranch (.inl hdefault)
    obtain rfl := exitCounts_eq_of_countsArcs hdefault harcs hcounts
    refine ⟨fun line => ?_, (looksAtArcs_of_ofRecorded ha).sum_exitCounts hlines⟩
    rw [hlines]
    exact ArcSet.mem_branchLines_exitCounts

/-! ## A page with lines of several exits -/

namespace Forks

/-- The reporter of a page. Lines 1, 2 and 3 go on in two ways each, of which line 2 need
not take both. Line 3 is left out, and the page can be entered at line 1 or 2. -/
def reporter : Reporter where
  host := ⟨∅, []⟩
  filename := ⟨"/s/page"⟩
  lines := .ok (.ofList [1, 2, 3, 4, 5])
  excludedLines := .ok (.ofList [3])
  noBranchLines := .ok (.ofList [2])
  arcs := .ok (.ofList
    [⟨-1, 1⟩, ⟨-1, 2⟩, ⟨1, 2⟩, ⟨1, 3⟩, ⟨2, -1⟩, ⟨2, 3⟩, ⟨3, 1⟩, ⟨3, 4⟩, ⟨5, 4⟩])

/-- The branch lines of the page have four exits, of which three are branches and one
leads to the line that is left out. -/
theorem exits_of_page :
    reporter.Answers ∧ reporter.CountsArcs ∧
      ∃ a, ofRecorded reporter ∅ ∅ = .ok a ∧ reporter.branchLines = .ok a.branchLines ∧
        a.branchLines = .ofList [1, 3] ∧ a.numbers.branches = 3 := by
  have hanswers : reporter.Answers :=
    ⟨⟨_, rfl⟩, ⟨_, rfl⟩, _, rfl, fun _ => ⟨⟨_, rfl⟩, _, rfl⟩⟩
  have hdefault : reporter.CountsArcs := rfl
  obtain ⟨a, ha, -, -, hsame, hdefaults⟩ :=
    exits_and_branch_lines_agree.2 reporter (.ofList [(1, 2), (2, 2), (3, 2), (5, 1)])
      (.ofList [2]) ∅ ∅ hanswers (by decide +kernel) rfl
  have hbranches := hsame (.inl hdefault)
  have hlines : reporter.branchLines = .ok (.ofList [1, 3]) := by decide +kernel
  have hchosen : a.branchLines = .ofList [1, 3] := Except.ok.inj (hbranches.symm.trans hlines)
  have hexits : ((SortedSet.ofList [1, 3] : LineSet).toList.map fun line =>
      ((SortedMap.ofList [(1, 2), (2, 2), (3, 2), (5, 1)] : ExitCounts).get? line).getD 0).sum =
        4 := by
    decide +kernel
  have hleftOut : (ofRecorded reporter ∅ ∅).map (·.leftOutBranches.size) = .ok 1 := by
    decide +kernel
  rw [ha] at hleftOut
  have hsize : a.leftOutBranches.size = 1 := Except.ok.inj hleftOut
  obtain ⟨-, hsum⟩ := hdefaults hdefault
  rw [hchosen, hexits, hsize] at hsum
  exact ⟨hanswers, hdefault, a, ha, hbranches, hchosen, by omega⟩

end Forks

end Analysis

end Coverage
