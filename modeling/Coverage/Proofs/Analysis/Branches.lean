/-
# Branches of an analysis

A branch is a possible arc from a branch line to a line that is not left out. The
counts of an analysis and the groups behind its texts are about these arcs: each
is either among the arcs that ran or missing, and a group holds the targets of the
missing ones that start from one line.

An analysis is taken apart once, by `Analysis.ofRecorded_eq_ok_iff`, and the rest
follows from what it says of the parts.
-/
import Coverage.Analysis
import Coverage.Proofs.Data.Lookups

namespace Coverage

namespace SortedSet

variable {α : Type} [Ord α]

theorem isEmpty_iff {s : SortedSet α} : s.isEmpty = true ↔ ∀ a, a ∉ s := by
  rw [isEmpty, List.isEmpty_iff, List.eq_nil_iff_forall_not_mem]
  rfl

theorem size_eq_zero_iff {s : SortedSet α} : s.size = 0 ↔ ∀ a, a ∉ s := by
  rw [size, List.length_eq_zero_iff, List.eq_nil_iff_forall_not_mem]
  rfl

end SortedSet

theorem ExitCounts.mem_branchLines {counts : ExitCounts} {noBranch : LineSet} {line : Int} :
    line ∈ counts.branchLines noBranch ↔
      (∃ n, 1 < n ∧ counts.get? line = some n) ∧ line ∉ noBranch := by
  rw [SortedSet.mem_def, branchLines, List.mem_map]
  constructor
  · intro h
    obtain ⟨⟨key, n⟩, hentry, rfl⟩ := h
    obtain ⟨hmem, hcond⟩ := List.mem_filter.1 hentry
    rw [Bool.and_eq_true, decide_eq_true_iff, decide_eq_true_iff] at hcond
    exact ⟨⟨n, hcond.1, SortedMap.get?_of_mem hmem⟩, hcond.2⟩
  · intro h
    obtain ⟨⟨n, hn, hentry⟩, hnot⟩ := h
    refine ⟨(line, n), List.mem_filter.2 ⟨SortedMap.mem_toList_iff.2 hentry, ?_⟩, rfl⟩
    rw [Bool.and_eq_true, decide_eq_true_iff, decide_eq_true_iff]
    exact ⟨hn, hnot⟩

/-- The lines that arcs start from. -/
def ArcSet.sources (arcs : ArcSet) : LineSet := .ofList (arcs.toList.map Arc.source)

theorem ArcSet.mem_sources {arcs : ArcSet} {source : Int} :
    source ∈ arcs.sources ↔ ∃ target, (⟨source, target⟩ : Arc) ∈ arcs := by
  rw [sources, SortedSet.mem_ofList, List.mem_map]
  constructor
  · intro h
    obtain ⟨arc, harc, rfl⟩ := h
    exact ⟨arc.target, harc⟩
  · intro h
    obtain ⟨target, htarget⟩ := h
    exact ⟨_, htarget, rfl⟩

/-- A reporter answers an analysis when no hook fails that is asked: those on
exits and on lines without branches are asked where an arc is possible. -/
def Reporter.Answers (reporter : Reporter) : Prop :=
  (∃ lines, reporter.lines = .ok lines) ∧ (∃ excluded, reporter.excludedLines = .ok excluded) ∧
    ∃ arcs, reporter.arcs = .ok arcs ∧ (arcs.isEmpty = false →
      (∃ counts, reporter.exitCounts = .ok counts) ∧
        ∃ noBranch, reporter.noBranchLines = .ok noBranch)

namespace Analysis

/-! ## The parts of an analysis -/

theorem bind_eq_ok_iff {α β : Type} {x : Except Failure α} {f : α → Except Failure β} {b : β} :
    (x >>= f) = .ok b ↔ ∃ a, x = .ok a ∧ f a = .ok b := by
  cases x with
  | error failure => simp [bind, Except.bind]
  | ok a => simp [bind, Except.bind]

theorem branchFacts_eq_ok_iff {reporter : Reporter} {recorded executed : ArcSet}
    {counts : ExitCounts} {noBranch : LineSet} :
    branchFacts reporter recorded = .ok (executed, counts, noBranch) ↔
      reporter.exitCounts = .ok counts ∧ reporter.noBranchLines = .ok noBranch ∧
        executed = reporter.translateArcs recorded := by
  rw [branchFacts, bind_eq_ok_iff]
  constructor
  · intro h
    obtain ⟨_, hcounts, h⟩ := h
    obtain ⟨_, hnoBranch, h⟩ := bind_eq_ok_iff.1 h
    cases h
    exact ⟨hcounts, hnoBranch, rfl⟩
  · intro h
    obtain ⟨hcounts, hnoBranch, rfl⟩ := h
    exact ⟨counts, hcounts, bind_eq_ok_iff.2 ⟨noBranch, hnoBranch, rfl⟩⟩

/-- An analysis succeeds exactly when the hooks do that it asks, those on exits and
on lines without branches only where an arc is possible. -/
theorem ofRecorded_eq_ok_iff {reporter : Reporter} {recordedLines : LineSet}
    {recordedArcs : ArcSet} {a : Analysis} :
    ofRecorded reporter recordedLines recordedArcs = .ok a ↔
      ∃ lines excluded arcs counts noBranch,
        reporter.lines = .ok lines ∧ reporter.excludedLines = .ok excluded ∧
        reporter.arcs = .ok arcs ∧
        (arcs.isEmpty = false →
          reporter.exitCounts = .ok counts ∧ reporter.noBranchLines = .ok noBranch) ∧
        (arcs.isEmpty = true → counts = ∅ ∧ noBranch = ∅) ∧
        a =
          { filename := reporter.filename
            statements := lines \ excluded
            excluded := excluded
            executed := reporter.translateLines recordedLines ∩ (lines \ excluded)
            missing :=
              (lines \ excluded) \ (reporter.translateLines recordedLines ∩ (lines \ excluded))
            unpredicted := reporter.translateLines recordedLines \ lines
            hasArcs := !arcs.isEmpty
            possibleArcs := arcs
            executedArcs := if arcs.isEmpty then ∅ else reporter.translateArcs recordedArcs
            exitCounts := counts
            noBranch := noBranch } := by
  simp only [ofRecorded, bind_eq_ok_iff]
  constructor
  · intro h
    obtain ⟨lines, hlines, excluded, hexcluded, arcs, harcs, h⟩ := h
    cases hempty : arcs.isEmpty with
    | true =>
      rw [hempty] at h
      obtain ⟨_, ⟨⟩, ⟨⟩⟩ := bind_eq_ok_iff.1 h
      refine ⟨lines, excluded, arcs, ∅, ∅, hlines, hexcluded, harcs, ?_, fun _ => ⟨rfl, rfl⟩, ?_⟩
      · intro hsome
        rw [hempty] at hsome
        cases hsome
      · rw [hempty]
        rfl
    | false =>
      rw [hempty] at h
      obtain ⟨⟨executed, counts, noBranch⟩, hfacts, ⟨⟩⟩ := bind_eq_ok_iff.1 h
      obtain ⟨hcounts, hnoBranch, rfl⟩ := branchFacts_eq_ok_iff.1 hfacts
      refine ⟨lines, excluded, arcs, counts, noBranch, hlines, hexcluded, harcs,
        fun _ => ⟨hcounts, hnoBranch⟩, ?_, ?_⟩
      · intro hnone
        rw [hempty] at hnone
        cases hnone
      · rw [hempty]
        rfl
  · intro h
    obtain ⟨lines, excluded, arcs, counts, noBranch, hlines, hexcluded, harcs, hsome, hnone, rfl⟩ :=
      h
    refine ⟨lines, hlines, excluded, hexcluded, arcs, harcs, ?_⟩
    cases hempty : arcs.isEmpty with
    | true =>
      obtain ⟨rfl, rfl⟩ := hnone hempty
      exact bind_eq_ok_iff.2 ⟨(∅, ∅, ∅), rfl, rfl⟩
    | false =>
      obtain ⟨hcounts, hnoBranch⟩ := hsome hempty
      exact bind_eq_ok_iff.2 ⟨_, branchFacts_eq_ok_iff.2 ⟨hcounts, hnoBranch, rfl⟩, rfl⟩

/-- What was recorded does not decide whether a file can be analyzed. -/
theorem exists_ofRecorded_iff {reporter : Reporter} {recordedLines : LineSet}
    {recordedArcs : ArcSet} :
    (∃ a, ofRecorded reporter recordedLines recordedArcs = .ok a) ↔ reporter.Answers := by
  constructor
  · intro h
    obtain ⟨a, ha⟩ := h
    obtain ⟨lines, excluded, arcs, counts, noBranch, hlines, hexcluded, harcs, hsome, -, -⟩ :=
      ofRecorded_eq_ok_iff.1 ha
    refine ⟨⟨lines, hlines⟩, ⟨excluded, hexcluded⟩, arcs, harcs, ?_⟩
    intro hfull
    exact ⟨⟨counts, (hsome hfull).1⟩, noBranch, (hsome hfull).2⟩
  · intro h
    obtain ⟨⟨lines, hlines⟩, ⟨excluded, hexcluded⟩, arcs, harcs, hfacts⟩ := h
    by_cases hempty : arcs.isEmpty = true
    · refine ⟨_, ofRecorded_eq_ok_iff.2 ⟨lines, excluded, arcs, ∅, ∅, hlines, hexcluded, harcs,
        ?_, fun _ => ⟨rfl, rfl⟩, rfl⟩⟩
      intro hfull
      rw [hempty] at hfull
      cases hfull
    · obtain ⟨⟨counts, hcounts⟩, noBranch, hnoBranch⟩ := hfacts (Bool.eq_false_iff.2 hempty)
      exact ⟨_, ofRecorded_eq_ok_iff.2 ⟨lines, excluded, arcs, counts, noBranch, hlines,
        hexcluded, harcs, fun _ => ⟨hcounts, hnoBranch⟩, fun h => absurd h hempty, rfl⟩⟩

/-! ## Groups -/

/-- The targets of arcs from one line, in order. -/
def targetsFrom (arcs : List Arc) (source : Int) : List Int :=
  (arcs.filter fun arc => arc.source = source).map Arc.target

theorem mem_targetsFrom {arcs : List Arc} {source target : Int} :
    target ∈ targetsFrom arcs source ↔ (⟨source, target⟩ : Arc) ∈ arcs := by
  rw [targetsFrom, List.mem_map]
  constructor
  · intro h
    obtain ⟨arc, harc, rfl⟩ := h
    obtain ⟨hmem, hsource⟩ := List.mem_filter.1 harc
    rw [← of_decide_eq_true hsource]
    exact hmem
  · intro h
    exact ⟨_, List.mem_filter.2 ⟨h, decide_eq_true rfl⟩, rfl⟩

/-- Group further arcs. -/
def groupInto (groups : SortedMap Int (List Int)) (arcs : List Arc) : SortedMap Int (List Int) :=
  arcs.foldl
    (fun groups arc => groups.alter arc.source fun targets => targets.getD [] ++ [arc.target])
    groups

theorem grouped_eq (arcs : ArcSet) : grouped arcs = groupInto ∅ arcs.toList := rfl

theorem get?_groupInto (groups : SortedMap Int (List Int)) (arcs : List Arc) (source : Int) :
    (groupInto groups arcs).get? source =
      if targetsFrom arcs source = [] then groups.get? source
      else some ((groups.get? source).getD [] ++ targetsFrom arcs source) := by
  induction arcs generalizing groups with
  | nil => rfl
  | cons arc arcs ih =>
    rw [groupInto, List.foldl_cons, ← groupInto, ih, SortedMap.get?_alter]
    by_cases hsource : arc.source = source
    · have hcompare : compare source arc.source = .eq := hsource ▸ Std.ReflCmp.compare_self
      have htargets : targetsFrom (arc :: arcs) source = arc.target :: targetsFrom arcs source := by
        simp [targetsFrom, hsource]
      rw [htargets, if_pos hcompare, if_neg (List.cons_ne_nil _ _), hsource]
      split
      · next hnil => rw [hnil]
      · rw [Option.getD_some, List.append_assoc, List.singleton_append]
    · have hcompare : ¬ compare source arc.source = .eq := fun h =>
        hsource (Std.LawfulEqOrd.eq_of_compare h).symm
      have htargets : targetsFrom (arc :: arcs) source = targetsFrom arcs source := by
        simp [targetsFrom, hsource]
      rw [htargets, if_neg hcompare]

/-- The group of a line holds the targets of its arcs; lines without arcs have none. -/
theorem get?_grouped (arcs : ArcSet) (source : Int) :
    (grouped arcs).get? source =
      if targetsFrom arcs.toList source = [] then none
      else some (targetsFrom arcs.toList source) :=
  get?_groupInto ∅ arcs.toList source

theorem mem_grouped {arcs : ArcSet} {source target : Int} :
    (∃ group ∈ (grouped arcs).toList, group.1 = source ∧ target ∈ group.2) ↔
      (⟨source, target⟩ : Arc) ∈ arcs := by
  rw [SortedSet.mem_def, ← mem_targetsFrom]
  constructor
  · intro h
    obtain ⟨group, hgroup, rfl, htarget⟩ := h
    have hfound := SortedMap.get?_of_mem hgroup
    rw [get?_grouped] at hfound
    split at hfound
    · cases hfound
    · rw [Option.some.inj hfound]
      exact htarget
  · intro h
    have hne : targetsFrom arcs.toList source ≠ [] := List.ne_nil_of_mem h
    refine ⟨(source, targetsFrom arcs.toList source), SortedMap.mem_toList_iff.2 ?_, rfl, h⟩
    rw [get?_grouped, if_neg hne]

theorem length_flatten_alterList (source target : Int) (groups : List (Int × List Int)) :
    ((SortedMap.alterList source (fun targets => targets.getD [] ++ [target]) groups).map
        (·.2)).flatten.length =
      (groups.map (·.2)).flatten.length + 1 := by
  induction groups with
  | nil => rfl
  | cons group groups ih =>
    rw [SortedMap.alterList]
    split
    · simp
    · simp only [List.map_cons, List.flatten_cons, List.length_append, Option.getD_some,
        List.length_singleton]
      omega
    · simp only [List.map_cons, List.flatten_cons, List.length_append, ih]
      omega

/-- The groups are those of the lines with arcs. -/
theorem mem_keys_grouped {arcs : ArcSet} {source : Int} :
    source ∈ (grouped arcs).keys ↔ ∃ target, (⟨source, target⟩ : Arc) ∈ arcs := by
  constructor
  · intro h
    obtain ⟨group, hgroup, rfl⟩ := List.mem_map.1 h
    have hfound := SortedMap.get?_of_mem hgroup
    rw [get?_grouped] at hfound
    split at hfound
    · cases hfound
    · next hne =>
      obtain ⟨target, htarget⟩ := List.exists_mem_of_ne_nil _ hne
      exact ⟨target, mem_targetsFrom.1 htarget⟩
  · intro h
    obtain ⟨target, htarget⟩ := h
    obtain ⟨group, hgroup, rfl, -⟩ := mem_grouped.2 htarget
    exact List.mem_map_of_mem hgroup

/-- Every arc stands in one group, once. -/
theorem length_flatten_grouped (arcs : ArcSet) :
    (grouped arcs).values.flatten.length = arcs.size := by
  have hgeneral : ∀ (arcs : List Arc) (groups : SortedMap Int (List Int)),
      (groupInto groups arcs).values.flatten.length =
        groups.values.flatten.length + arcs.length := by
    intro arcs
    induction arcs with
    | nil => exact fun _ => rfl
    | cons arc arcs ih =>
      intro groups
      rw [groupInto, List.foldl_cons, ← groupInto, ih, List.length_cons, SortedMap.values,
        SortedMap.alter, length_flatten_alterList, SortedMap.values]
      omega
  rw [grouped_eq, hgeneral, SortedSet.size]
  exact Nat.zero_add _

/-! ## Missing branches -/

/-- The missing arcs from branch lines. -/
def missingBranches (a : Analysis) : ArcSet :=
  a.missingArcs.filter fun arc => arc.source ∈ a.branchLines

variable {a : Analysis} {arc : Arc}

theorem mem_branchArcs :
    arc ∈ a.branchArcs ↔
      arc ∈ a.possibleArcs ∧ arc.source ∈ a.branchLines ∧ arc.target ∉ a.excluded := by
  simp only [branchArcs, SortedSet.mem_filter, Bool.and_eq_true, decide_eq_true_iff]

/-- A branch is missing when it did not run. -/
theorem mem_missingBranches :
    arc ∈ a.missingBranches ↔ arc ∈ a.branchArcs ∧ arc ∉ a.executedArcs := by
  rw [mem_branchArcs]
  simp only [missingBranches, missingArcs, SortedSet.mem_filter, Bool.and_eq_true,
    decide_eq_true_iff]
  constructor
  · intro h
    obtain ⟨⟨hpossible, ⟨hnever, -⟩, htarget⟩, hsource⟩ := h
    exact ⟨⟨hpossible, hsource, htarget⟩, hnever⟩
  · intro h
    obtain ⟨⟨hpossible, hsource, htarget⟩, hnever⟩ := h
    have hbranches : arc.source ∉ a.noBranch := (ExitCounts.mem_branchLines.1 hsource).2
    exact ⟨⟨hpossible, ⟨hnever, hbranches⟩, htarget⟩, hsource⟩

theorem partialLines_eq : a.partialLines = (a.missingBranches.sources \ a.missing).toList := by
  have hkeys : a.missingBranchArcs.keys.Pairwise (fun a b => compare a b = .lt) := by
    rw [SortedMap.keys, List.pairwise_map]
    exact a.missingBranchArcs.ascending
  apply SortedSet.eq_of_mem_iff (hkeys.filter _) (SortedSet.ascending _)
  intro line
  rw [List.mem_filter, decide_eq_true_iff, ← SortedSet.mem_def, SortedSet.mem_sdiff,
    ArcSet.mem_sources]
  exact and_congr_left fun _ => mem_keys_grouped

/-! ## Counts -/

/-- An analysis looks at arcs when the reporter knows any. -/
def LooksAtArcs (a : Analysis) : Prop := a.hasArcs = !a.possibleArcs.isEmpty

theorem looksAtArcs_of_ofRecorded {reporter : Reporter} {recordedLines : LineSet}
    {recordedArcs : ArcSet} (h : ofRecorded reporter recordedLines recordedArcs = .ok a) :
    a.LooksAtArcs := by
  obtain ⟨_, _, _, _, _, _, _, _, _, _, rfl⟩ := ofRecorded_eq_ok_iff.1 h
  rfl

namespace LooksAtArcs

theorem notMem_branchArcs (ha : a.LooksAtArcs) (harcs : ¬ a.hasArcs = true) :
    arc ∉ a.branchArcs := by
  intro h
  rw [ha, Bool.not_eq_true', Bool.not_eq_false] at harcs
  exact SortedSet.isEmpty_iff.1 harcs arc (mem_branchArcs.1 h).1

theorem notMem_missingBranches (ha : a.LooksAtArcs) (harcs : ¬ a.hasArcs = true) :
    arc ∉ a.missingBranches := fun h =>
  ha.notMem_branchArcs harcs (mem_missingBranches.1 h).1

/-- Branches are counted one by one. -/
theorem branches_numbers (ha : a.LooksAtArcs) : a.numbers.branches = a.branchArcs.size := by
  rw [numbers]
  split
  · rfl
  · next harcs => exact (SortedSet.size_eq_zero_iff.2 fun _ => ha.notMem_branchArcs harcs).symm

theorem missingBranches_numbers (ha : a.LooksAtArcs) :
    a.numbers.missingBranches = a.missingBranches.size := by
  rw [numbers]
  split
  · exact length_flatten_grouped a.missingBranches
  · next harcs =>
    exact (SortedSet.size_eq_zero_iff.2 fun _ => ha.notMem_missingBranches harcs).symm

/-- A line is partial when it ran and misses a branch. -/
theorem partialBranches_numbers (ha : a.LooksAtArcs) :
    a.numbers.partialBranches = (a.missingBranches.sources \ a.missing).size := by
  rw [numbers]
  split
  · change a.partialLines.length = _
    rw [partialLines_eq, SortedSet.size]
  · next harcs =>
    symm
    apply SortedSet.size_eq_zero_iff.2
    intro line hline
    rw [SortedSet.mem_sdiff, ArcSet.mem_sources] at hline
    obtain ⟨⟨target, htarget⟩, -⟩ := hline
    exact ha.notMem_missingBranches harcs htarget

/-- Nothing is counted exactly when there is no branch. -/
theorem counts_eq_zero_iff (ha : a.LooksAtArcs) :
    a.numbers.branches = 0 ∧ a.numbers.partialBranches = 0 ∧ a.numbers.missingBranches = 0 ↔
      ∀ arc, arc ∉ a.branchArcs := by
  rw [ha.branches_numbers, ha.partialBranches_numbers, ha.missingBranches_numbers,
    SortedSet.size_eq_zero_iff, SortedSet.size_eq_zero_iff, SortedSet.size_eq_zero_iff]
  constructor
  · intro h
    exact h.1
  · intro h
    have hmissing : ∀ arc, arc ∉ a.missingBranches := fun arc harc =>
      h arc (mem_missingBranches.1 harc).1
    refine ⟨h, ?_, hmissing⟩
    intro line hline
    rw [SortedSet.mem_sdiff, ArcSet.mem_sources] at hline
    obtain ⟨⟨target, htarget⟩, -⟩ := hline
    exact hmissing _ htarget

end LooksAtArcs

section Recorded

variable {reporter : Reporter} {recordedLines : LineSet} {recordedArcs : ArcSet}

theorem arcs_eq_of_ofRecorded (h : ofRecorded reporter recordedLines recordedArcs = .ok a) :
    reporter.arcs = .ok a.possibleArcs := by
  obtain ⟨_, _, _, _, _, -, -, harcs, -, -, rfl⟩ := ofRecorded_eq_ok_iff.1 h
  exact harcs

theorem executedArcs_eq_of_ofRecorded
    (h : ofRecorded reporter recordedLines recordedArcs = .ok a) :
    a.executedArcs = if a.possibleArcs.isEmpty then ∅ else reporter.translateArcs recordedArcs := by
  obtain ⟨_, _, _, _, _, -, -, -, -, -, rfl⟩ := ofRecorded_eq_ok_iff.1 h
  rfl

/-- The missing branches are those that no recorded arc is translated to. -/
theorem missingBranches_eq_of_ofRecorded
    (h : ofRecorded reporter recordedLines recordedArcs = .ok a) :
    a.missingBranches = a.branchArcs \ reporter.translateArcs recordedArcs := by
  ext arc
  rw [mem_missingBranches, SortedSet.mem_sdiff, executedArcs_eq_of_ofRecorded h]
  apply and_congr_right
  intro harc
  have hpossible : ¬ a.possibleArcs.isEmpty = true := fun hempty =>
    SortedSet.isEmpty_iff.1 hempty arc (mem_branchArcs.1 harc).1
  rw [if_neg hpossible]

end Recorded

end Analysis

end Coverage
