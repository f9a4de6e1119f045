/-
# The accounts of an analysis

An analysis sorts the lines and the arcs of a file several times over, each time by a
condition of its own: into statements that ran and statements that did not, into arcs
that are missing and arcs that are excused, into branches by the line that they start
from. The main statement says that the accounts agree. Every line and every arc has one
place, the counts add up, and no difference of two counts is cut off at zero.

Nothing is assumed of the answers of a reporter. Its exits may disagree with its arcs,
lines may be left out that are not executable, and what was recorded may be translated
to anything.
-/
import Coverage.Proofs.Analysis.Branches
import Mathlib.Data.List.Nodup

namespace Coverage

/-! ## Sets that are put together from parts -/

namespace SortedSet

variable {α : Type} [Ord α]

/-- A set is the disjoint union of some lists: each of its elements stands in one of
them, and there once. -/
def IsSplitInto (s : SortedSet α) (parts : List (List α)) : Prop :=
  s.toList.Perm parts.flatten

variable {s t u : SortedSet α} {part : List α} {parts : List (List α)}

theorem IsSplitInto.size_eq (h : s.IsSplitInto parts) : s.size = parts.flatten.length :=
  h.length_eq

/-- A part that is a set can be split further. -/
theorem IsSplitInto.refine (h : s.IsSplitInto [part, t.toList]) (ht : t.IsSplitInto parts) :
    s.IsSplitInto (part :: parts) := by
  have hpair : s.toList.Perm (part ++ t.toList) := by simpa [IsSplitInto] using h
  exact hpair.trans (ht.append_left part)

/-- A set is split by a property of its elements. -/
theorem isSplitInto_pair [Std.ReflOrd α] (p : α → Prop) (ht : ∀ a, a ∈ t ↔ a ∈ s ∧ p a)
    (hu : ∀ a, a ∈ u ↔ a ∈ s ∧ ¬ p a) : s.IsSplitInto [t.toList, u.toList] := by
  have hdisjoint : t.toList.Disjoint u.toList := fun a hat hau =>
    ((hu a).1 hau).2 ((ht a).1 hat).2
  have hnodup : (t.toList ++ u.toList).Nodup := t.nodup.append u.nodup hdisjoint
  have hperm : s.toList.Perm (t.toList ++ u.toList) := by
    rw [List.perm_ext_iff_of_nodup s.nodup hnodup]
    intro a
    rw [List.mem_append, ← mem_def, ← mem_def, ← mem_def, ht, hu, ← and_or_left]
    exact (and_iff_left (em (p a))).symm
  simpa [IsSplitInto] using hperm

end SortedSet

/-! ## Arcs by the line that they start from -/

/-- A later arc of a set starts from no earlier line. -/
theorem Arc.source_le_of_lt {a b : Arc} (h : compare a b = .lt) : a.source ≤ b.source := by
  have hlex : (compare a.source b.source).then (compare a.target b.target) = .lt := h
  rcases Ordering.then_eq_lt.1 hlex with hlt | ⟨heq, -⟩
  · exact Int.le_of_lt (Int.compare_eq_lt.1 hlt)
  · exact Int.le_of_eq (Int.compare_eq_eq.1 heq)

namespace Analysis

/-- The arcs of some groups. -/
def ungroupedList (groups : List (Int × List Int)) : List Arc :=
  groups.flatMap fun group => group.2.map (Arc.mk group.1)

/-- The arcs of groups by line, in order. -/
def ungrouped (groups : SortedMap Int (List Int)) : List Arc := ungroupedList groups.toList

/-- An arc that starts from no earlier line than the groups is added at the end. -/
theorem ungroupedList_alterList {groups : List (Int × List Int)} (arc : Arc)
    (hascending : groups.Pairwise fun g h => compare g.1 h.1 = .lt)
    (hlast : ∀ group ∈ groups, group.1 ≤ arc.source) :
    ungroupedList (SortedMap.alterList arc.source
        (fun targets => targets.getD [] ++ [arc.target]) groups) =
      ungroupedList groups ++ [arc] := by
  induction groups with
  | nil => rfl
  | cons group groups ih =>
    obtain ⟨hfirst, hrest⟩ := List.pairwise_cons.1 hascending
    obtain ⟨hgroup, hgroups⟩ := List.forall_mem_cons.1 hlast
    rw [SortedMap.alterList]
    split
    · next hlt => exact absurd (Int.compare_eq_lt.1 hlt) (Int.not_lt.2 hgroup)
    · next heq =>
      have hsource : arc.source = group.1 := Int.compare_eq_eq.1 heq
      -- All other groups are of later lines, and there are none.
      have hnil : groups = [] := by
        rw [List.eq_nil_iff_forall_not_mem]
        intro other hother
        have hlater : group.1 < other.1 := Int.compare_eq_lt.1 (hfirst other hother)
        have hbound := hgroups other hother
        omega
      subst hnil
      simp [ungroupedList, ← hsource]
    · have hothers := ih hrest hgroups
      simp only [ungroupedList, List.flatMap_cons, List.append_assoc] at hothers ⊢
      rw [hothers]

theorem ungrouped_groupInto {groups : SortedMap Int (List Int)} {arcs : List Arc}
    (hascending : arcs.Pairwise fun a b => a.source ≤ b.source)
    (hlast : ∀ line ∈ groups.keys, ∀ arc ∈ arcs, line ≤ arc.source) :
    ungrouped (groupInto groups arcs) = ungrouped groups ++ arcs := by
  induction arcs generalizing groups with
  | nil => exact (List.append_nil _).symm
  | cons arc arcs ih =>
    obtain ⟨hfirst, hrest⟩ := List.pairwise_cons.1 hascending
    rw [groupInto, List.foldl_cons, ← groupInto, ih hrest]
    · have hgroups : ∀ group ∈ groups.toList, group.1 ≤ arc.source := fun group hgroup =>
        hlast group.1 (List.mem_map_of_mem hgroup) arc List.mem_cons_self
      rw [ungrouped, SortedMap.alter, ungroupedList_alterList arc groups.ascending hgroups,
        List.append_assoc, List.singleton_append, ungrouped]
    · intro line hline other hother
      rw [SortedMap.mem_keys_iff, SortedMap.get?_alter] at hline
      by_cases hsame : compare line arc.source = .eq
      · rw [Int.compare_eq_eq.1 hsame]
        exact hfirst other hother
      · rw [if_neg hsame, ← SortedMap.mem_keys_iff] at hline
        exact hlast line hline other (List.mem_cons_of_mem _ hother)

/-- Grouping loses no arc and invents none. -/
@[simp]
theorem ungrouped_grouped (arcs : ArcSet) : ungrouped (grouped arcs) = arcs.toList := by
  have hascending : arcs.toList.Pairwise fun a b => a.source ≤ b.source :=
    arcs.ascending.imp Arc.source_le_of_lt
  have hempty : ∀ line ∈ (∅ : SortedMap Int (List Int)).keys, ∀ arc ∈ arcs.toList,
      line ≤ arc.source := fun _ hline => absurd hline List.not_mem_nil
  exact ungrouped_groupInto hascending hempty

/-! ## The place of every line and arc -/

/-- The possible arcs that are excused. They never ran, and start from a line that need
not take all its exits or lead to a line that is left out. -/
def excusedArcs (a : Analysis) : ArcSet :=
  a.possibleArcs.filter fun arc =>
    arc ∉ a.executedArcs && (arc.source ∈ a.noBranch || arc.target ∈ a.excluded)

/-- The branches that ran into lines that are not left out. -/
def takenBranches (a : Analysis) : List Arc :=
  (ungrouped a.executedBranchArcs).filter fun arc => arc.target ∉ a.excluded

/-- A possible arc ran, or is missing, or is excused. -/
theorem possibleArcs_isSplitInto (a : Analysis) :
    a.possibleArcs.IsSplitInto
      [(a.possibleArcs ∩ a.executedArcs).toList, a.missingArcs.toList, a.excusedArcs.toList] := by
  have hran : a.possibleArcs.IsSplitInto
      [(a.possibleArcs ∩ a.executedArcs).toList, (a.possibleArcs \ a.executedArcs).toList] :=
    SortedSet.isSplitInto_pair (· ∈ a.executedArcs) (fun _ => SortedSet.mem_inter)
      fun _ => SortedSet.mem_sdiff
  apply hran.refine
  apply SortedSet.isSplitInto_pair fun arc => arc.source ∉ a.noBranch ∧ arc.target ∉ a.excluded
  · intro arc
    simp [missingArcs, and_assoc]
  · intro arc
    simp [excusedArcs, and_assoc, Decidable.imp_iff_not_or]

/-- A branch is missing, or ran into a line that is not left out. -/
theorem branchArcs_isSplitInto (a : Analysis) :
    a.branchArcs.IsSplitInto [ungrouped a.missingBranchArcs, a.takenBranches] := by
  have hmissing : ungrouped a.missingBranchArcs = a.missingBranches.toList := ungrouped_grouped _
  have htaken : a.takenBranches = (a.branchArcs ∩ a.executedArcs).toList := by
    rw [takenBranches, executedBranchArcs, ungrouped_grouped]
    show (SortedSet.filter _ (SortedSet.filter _ a.executedArcs)).toList = _
    congr 1
    ext arc
    simp only [SortedSet.mem_filter, SortedSet.mem_inter, mem_branchArcs, Bool.and_eq_true,
      decide_eq_true_iff]
    tauto
  rw [hmissing, htaken]
  apply SortedSet.isSplitInto_pair (· ∉ a.executedArcs)
  · exact fun _ => mem_missingBranches
  · intro arc
    rw [SortedSet.mem_inter, Decidable.not_not]

section Recorded

variable {reporter : Reporter} {recordedLines : LineSet} {recordedArcs : ArcSet} {a : Analysis}
  {lines : LineSet}

/-- What the sets of lines of an analysis are. -/
theorem lines_eq_of_ofRecorded (h : ofRecorded reporter recordedLines recordedArcs = .ok a)
    (hlines : reporter.lines = .ok lines) :
    a.statements = lines \ a.excluded ∧
      a.executed = reporter.translateLines recordedLines ∩ a.statements ∧
      a.missing = a.statements \ a.executed ∧
      a.unpredicted = reporter.translateLines recordedLines \ lines := by
  obtain ⟨known, _, _, _, _, hknown, -, -, -, -, rfl⟩ := ofRecorded_eq_ok_iff.1 h
  obtain rfl : known = lines := Except.ok.inj (hknown.symm.trans hlines)
  exact ⟨rfl, rfl, rfl, rfl⟩

/-- What an analysis takes over from its reporter. On exits and on lines without branches the
reporter is asked only where it knows of an arc. -/
theorem answers_of_ofRecorded (h : ofRecorded reporter recordedLines recordedArcs = .ok a) :
    reporter.excludedLines = .ok a.excluded ∧ reporter.arcs = .ok a.possibleArcs ∧
      (a.possibleArcs.isEmpty = false →
        a.executedArcs = reporter.translateArcs recordedArcs ∧
          reporter.exitCounts = .ok a.exitCounts ∧ reporter.noBranchLines = .ok a.noBranch) ∧
      (a.possibleArcs.isEmpty = true →
        a.executedArcs = ∅ ∧ a.exitCounts = ∅ ∧ a.noBranch = ∅) := by
  have hexecuted := executedArcs_eq_of_ofRecorded h
  obtain ⟨_, _, _, _, _, -, hexcluded, harcs, hsome, hnone, rfl⟩ := ofRecorded_eq_ok_iff.1 h
  refine ⟨hexcluded, harcs, fun hfull => ⟨?_, hsome hfull⟩, fun hempty => ⟨?_, hnone hempty⟩⟩
  · rw [hexecuted, if_neg (Bool.eq_false_iff.1 hfull)]
  · rw [hexecuted, if_pos hempty]

/-- A statement ran or is missing. -/
theorem statements_isSplitInto (h : ofRecorded reporter recordedLines recordedArcs = .ok a)
    (hlines : reporter.lines = .ok lines) :
    a.statements.IsSplitInto [a.executed.toList, a.missing.toList] := by
  obtain ⟨-, hexecuted, hmissing, -⟩ := lines_eq_of_ofRecorded h hlines
  apply SortedSet.isSplitInto_pair (· ∈ a.executed)
  · intro line
    have hstatement : line ∈ a.executed → line ∈ a.statements := by
      rw [hexecuted, SortedSet.mem_inter]
      exact And.right
    exact (and_iff_right_of_imp hstatement).symm
  · intro line
    rw [hmissing, SortedSet.mem_sdiff]

/-- A translated line is a statement that ran, or is not executable, or is left out. -/
theorem translated_isSplitInto (h : ofRecorded reporter recordedLines recordedArcs = .ok a)
    (hlines : reporter.lines = .ok lines) :
    (reporter.translateLines recordedLines).IsSplitInto
      [a.executed.toList, a.unpredicted.toList,
        (reporter.translateLines recordedLines ∩ (lines ∩ a.excluded)).toList] := by
  obtain ⟨hstatements, hexecuted, -, hunpredicted⟩ := lines_eq_of_ofRecorded h hlines
  have hran : (reporter.translateLines recordedLines).IsSplitInto
      [a.executed.toList, (reporter.translateLines recordedLines \ a.statements).toList] := by
    rw [hexecuted]
    exact SortedSet.isSplitInto_pair (· ∈ a.statements) (fun _ => SortedSet.mem_inter)
      fun _ => SortedSet.mem_sdiff
  apply hran.refine
  apply SortedSet.isSplitInto_pair (· ∉ lines)
  all_goals
    intro line
    simp only [hstatements, hunpredicted, SortedSet.mem_sdiff, SortedSet.mem_inter]
    tauto

end Recorded

/-! ## The counts -/

/-- There are no more lines that arcs start from than arcs. -/
theorem size_sources_sdiff_le (arcs : ArcSet) (lines : LineSet) :
    (arcs.sources \ lines).size ≤ arcs.size := by
  have hsubset : (arcs.sources \ lines).toList ⊆ arcs.toList.map Arc.source := by
    intro line hline
    have hsource := (SortedSet.mem_sdiff.1 (SortedSet.mem_def.2 hline)).1
    exact SortedSet.mem_ofList.1 hsource
  calc (arcs.sources \ lines).size
      ≤ (arcs.toList.map Arc.source).length :=
        List.Nodup.length_le_of_subset (arcs.sources \ lines).nodup hsubset
    _ = arcs.size := List.length_map _

namespace LooksAtArcs

variable {a : Analysis}

/-- The branches are those that are missing and those that were taken. -/
theorem branches_numbers_eq_add (ha : a.LooksAtArcs) :
    a.numbers.branches = a.numbers.missingBranches + a.takenBranches.length := by
  have hmissing : ungrouped a.missingBranchArcs = a.missingBranches.toList := ungrouped_grouped _
  rw [ha.branches_numbers, ha.missingBranches_numbers, a.branchArcs_isSplitInto.size_eq, hmissing]
  simp [SortedSet.size]

theorem partialBranches_le (ha : a.LooksAtArcs) :
    a.numbers.partialBranches ≤ a.numbers.missingBranches := by
  rw [ha.partialBranches_numbers, ha.missingBranches_numbers]
  exact size_sources_sdiff_le _ _

end LooksAtArcs

/-- A reporter whose hooks succeed gets an analysis of what they answer, and the accounts of
it are exact: of the statements, of the recorded lines in reported coordinates, of the
possible arcs, and of the branches that are counted. So the counts bound each other as they
should, and those of what ran are true differences. -/
theorem accounts_are_exact (reporter : Reporter) (hanswers : reporter.Answers)
    (recordedLines : LineSet) (recordedArcs : ArcSet) :
    ∃ a lines, ofRecorded reporter recordedLines recordedArcs = .ok a ∧
      reporter.lines = .ok lines ∧
      (reporter.excludedLines = .ok a.excluded ∧ reporter.arcs = .ok a.possibleArcs ∧
        (a.possibleArcs.isEmpty = false →
          a.executedArcs = reporter.translateArcs recordedArcs ∧
            reporter.exitCounts = .ok a.exitCounts ∧ reporter.noBranchLines = .ok a.noBranch) ∧
        (a.possibleArcs.isEmpty = true →
          a.executedArcs = ∅ ∧ a.exitCounts = ∅ ∧ a.noBranch = ∅)) ∧
      let translated := reporter.translateLines recordedLines
      let n := a.numbers
      (a.statements.IsSplitInto [a.executed.toList, a.missing.toList] ∧
        ∀ line ∈ a.statements, line ∉ a.excluded) ∧
      translated.IsSplitInto
        [a.executed.toList, a.unpredicted.toList, (translated ∩ (lines ∩ a.excluded)).toList] ∧
      a.possibleArcs.IsSplitInto
        [(a.possibleArcs ∩ a.executedArcs).toList, a.missingArcs.toList, a.excusedArcs.toList] ∧
      a.branchArcs.IsSplitInto [ungrouped a.missingBranchArcs, a.takenBranches] ∧
      (n.statements = a.statements.size ∧ n.missing = a.missing.size ∧
        n.missing ≤ n.statements ∧ n.executed = a.executed.size ∧
        n.executed + n.missing = n.statements) ∧
      n.branches = a.branchArcs.size ∧
        n.missingBranches = (ungrouped a.missingBranchArcs).length ∧
        n.partialBranches ≤ n.missingBranches ∧ n.missingBranches ≤ n.branches ∧
        n.executedBranches = a.takenBranches.length ∧
        n.executedBranches + n.missingBranches = n.branches := by
  obtain ⟨a, ha⟩ := exists_ofRecorded_iff.2 hanswers
  obtain ⟨lines, hlines⟩ := hanswers.1
  refine ⟨a, lines, ha, hlines, answers_of_ofRecorded ha, ?_⟩
  intro translated n
  have hstatements := statements_isSplitInto ha hlines
  have hexcluded : ∀ line ∈ a.statements, line ∉ a.excluded := by
    rw [(lines_eq_of_ofRecorded ha hlines).1]
    exact fun line hline => (SortedSet.mem_sdiff.1 hline).2
  have hran : a.statements.size = a.executed.size + a.missing.size := by
    rw [hstatements.size_eq]
    simp [SortedSet.size]
  have hlooks := looksAtArcs_of_ofRecorded ha
  have hbranches : n.branches = n.missingBranches + a.takenBranches.length :=
    hlooks.branches_numbers_eq_add
  have hmissing : n.missingBranches = (ungrouped a.missingBranchArcs).length := by
    rw [hlooks.missingBranches_numbers]
    exact (congrArg List.length (ungrouped_grouped _)).symm
  refine ⟨⟨hstatements, hexcluded⟩, translated_isSplitInto ha hlines, a.possibleArcs_isSplitInto,
    a.branchArcs_isSplitInto, ?_, hlooks.branches_numbers, hmissing, hlooks.partialBranches_le, ?_⟩
  · have hcount : n.statements = a.statements.size := rfl
    have hmissed : n.missing = a.missing.size := rfl
    have hexecuted : n.executed = n.statements - n.missing := rfl
    omega
  · have htaken : n.executedBranches = n.branches - n.missingBranches := rfl
    omega

/-! ## A page whose reporter contradicts itself -/

namespace Contradiction

/-- The reporter of a page. Its exits fall short of its arcs, it leaves out a line that
is not executable, and it translates every recording to more than it knows of. -/
def reporter : Reporter where
  host := ⟨∅, []⟩
  filename := ⟨"/s/page"⟩
  lines := .ok (.ofList [1, 2, 3, 4])
  excludedLines := .ok (.ofList [3, 9])
  noBranchLines := .ok (.ofList [4])
  translateLines _ := .ofList [1, 3, 7]
  arcs := .ok (.ofList [⟨1, 2⟩, ⟨1, 3⟩, ⟨1, 4⟩, ⟨4, 1⟩, ⟨4, 2⟩])
  translateArcs arcs := insert ⟨1, 3⟩ arcs
  exitCounts := .ok ((∅ : ExitCounts).insert 1 2)

/-- The accounts of the page: one of three statements ran, and one of two branches. The
arc from line 1 to line 3 ran as well, and is no branch because line 3 is left out. -/
theorem accounts_of_contradiction :
    reporter.Answers ∧
      ∃ a, ofRecorded reporter (.ofList [5]) (.ofList [⟨1, 2⟩]) = .ok a ∧
        a.numbers = ⟨1, 3, 2, 2, 2, 1, 1⟩ ∧
        a.branchArcs.IsSplitInto [ungrouped a.missingBranchArcs, a.takenBranches] ∧
        a.numbers.executed + a.numbers.missing = a.numbers.statements ∧
        a.numbers.executedBranches + a.numbers.missingBranches = a.numbers.branches := by
  have hanswers : reporter.Answers :=
    ⟨⟨_, rfl⟩, ⟨_, rfl⟩, _, rfl, fun _ => ⟨⟨_, rfl⟩, _, rfl⟩⟩
  have hnumbers : (ofRecorded reporter (.ofList [5]) (.ofList [⟨1, 2⟩])).map numbers =
      .ok ⟨1, 3, 2, 2, 2, 1, 1⟩ := by decide +kernel
  obtain ⟨a, lines, ha, -, -, -, -, -, hbranches, hstatements, hcounts⟩ :=
    accounts_are_exact reporter hanswers (.ofList [5]) (.ofList [⟨1, 2⟩])
  rw [ha] at hnumbers
  exact ⟨hanswers, a, ha, Except.ok.inj hnumbers, hbranches, hstatements.2.2.2.2,
    hcounts.2.2.2.2.2⟩

end Contradiction

end Analysis

end Coverage
