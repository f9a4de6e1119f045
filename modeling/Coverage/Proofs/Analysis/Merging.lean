/-
# Analyses of recordings taken together

A file can be recorded more than once, and an analysis can be made of each recording or
of all of them together. Here the two are compared. What ran in one of two recordings ran
in both taken together, what is missing from both is missing, and nothing else is. So
with more recorded the counts of what is missing never grow, and what could have run
stays the same.

This takes a reporter that translates recordings part by part: a translation that looks
at two lines at once could take back with the second what it made of the first. A
translation of one line at a time is such a reporter's.
-/
import Coverage.Proofs.Analysis.Accounting

namespace Coverage

/-! ## Sets -/

namespace SortedSet

variable {α β : Type} [Ord α] [Ord β] [Std.TransOrd β] [Std.LawfulEqOrd β]

/-- The values of a function on the elements. -/
def image (f : α → β) (s : SortedSet α) : SortedSet β := ofList (s.toList.map f)

@[simp]
theorem mem_image {f : α → β} {s : SortedSet α} {b : β} : b ∈ s.image f ↔ ∃ a ∈ s, f a = b := by
  rw [image, mem_ofList, List.mem_map]
  rfl

theorem image_union [Std.TransOrd α] [Std.LawfulEqOrd α] (f : α → β) (s t : SortedSet α) :
    (s ∪ t).image f = s.image f ∪ t.image f := by
  ext b
  simp only [mem_image, mem_union, or_and_right, exists_or]

/-- A function of sets that changes none, or takes their elements one by one. -/
def IsElementwise (f : SortedSet β → SortedSet β) : Prop := f = id ∨ ∃ g, f = image g

theorem IsElementwise.union {f : SortedSet β → SortedSet β} (h : IsElementwise f)
    (s t : SortedSet β) : f (s ∪ t) = f s ∪ f t := by
  rcases h with rfl | ⟨g, rfl⟩
  · rfl
  · exact image_union g s t

theorem union_comm (s t : SortedSet β) : s ∪ t = t ∪ s := by
  ext b
  rw [mem_union, mem_union, Or.comm]

theorem inter_comm [DecidableEq β] (s t : SortedSet β) : s ∩ t = t ∩ s := by
  ext b
  rw [mem_inter, mem_inter, And.comm]

omit [Std.TransOrd β] [Std.LawfulEqOrd β] in
theorem size_inter_le [DecidableEq β] (s t : SortedSet β) : (s ∩ t).size ≤ s.size :=
  List.length_filter_le ..

end SortedSet

/-- The reporter translates recordings part by part. -/
structure Reporter.TranslatesUnions (reporter : Reporter) : Prop where
  lines (s t : LineSet) :
    reporter.translateLines (s ∪ t) = reporter.translateLines s ∪ reporter.translateLines t
  arcs (s t : ArcSet) :
    reporter.translateArcs (s ∪ t) = reporter.translateArcs s ∪ reporter.translateArcs t

/-- The reporter leaves lines and arcs as they were recorded, or translates one at a time. -/
def Reporter.TranslatesOneByOne (reporter : Reporter) : Prop :=
  SortedSet.IsElementwise reporter.translateLines ∧ SortedSet.IsElementwise reporter.translateArcs

theorem Reporter.TranslatesOneByOne.translatesUnions {reporter : Reporter}
    (h : reporter.TranslatesOneByOne) : reporter.TranslatesUnions where
  lines := h.1.union
  arcs := h.2.union

namespace Analysis

/-! ## Groups of shared arcs -/

/-- The targets that two groups of a line share. There is no group where they share none. -/
def sharedTargets : Option (List Int) → Option (List Int) → Option (List Int)
  | some targets, some others =>
    if targets.filter (· ∈ others) = [] then none else some (targets.filter (· ∈ others))
  | _, _ => none

theorem targetsFrom_inter (s t : ArcSet) (source : Int) :
    targetsFrom (s ∩ t).toList source =
      (targetsFrom s.toList source).filter (· ∈ targetsFrom t.toList source) := by
  have hinter : targetsFrom (s ∩ t).toList source =
      ((s.toList.filter (· ∈ t)).filter fun arc => arc.source = source).map Arc.target := rfl
  have htargets : targetsFrom s.toList source =
      (s.toList.filter fun arc => arc.source = source).map Arc.target := rfl
  rw [hinter, htargets, List.filter_map, List.filter_filter, List.filter_filter]
  congr 1
  apply List.filter_congr
  intro arc _
  rw [Function.comp_apply, Bool.and_comm, ← Bool.decide_and, ← Bool.decide_and,
    decide_eq_decide]
  apply and_congr_left
  intro hsource
  rw [mem_targetsFrom, ← hsource, SortedSet.mem_def]

/-- The groups of shared arcs have the shared targets of the groups. -/
theorem get?_grouped_inter (s t : ArcSet) (source : Int) :
    (grouped (s ∩ t)).get? source =
      sharedTargets ((grouped s).get? source) ((grouped t).get? source) := by
  rw [get?_grouped, get?_grouped, get?_grouped, targetsFrom_inter]
  by_cases hs : targetsFrom s.toList source = []
  · rw [if_pos hs, hs]
    rfl
  · by_cases ht : targetsFrom t.toList source = []
    · rw [if_neg hs, if_pos ht, ht]
      simp [sharedTargets]
    · rw [if_neg hs, if_neg ht, sharedTargets]

/-! ## What is shared by analyses of one reporter -/

/-- The analyses agree on all that was not recorded. -/
structure SameReporter (a b : Analysis) : Prop where
  statements : a.statements = b.statements
  excluded : a.excluded = b.excluded
  hasArcs : a.hasArcs = b.hasArcs
  possibleArcs : a.possibleArcs = b.possibleArcs
  exitCounts : a.exitCounts = b.exitCounts
  noBranch : a.noBranch = b.noBranch

namespace SameReporter

variable {a b : Analysis}

theorem branchLines (h : SameReporter a b) : a.branchLines = b.branchLines := by
  rw [Analysis.branchLines, Analysis.branchLines, h.exitCounts, h.noBranch]

theorem branchArcs (h : SameReporter a b) : a.branchArcs = b.branchArcs := by
  ext arc
  rw [mem_branchArcs, mem_branchArcs, h.possibleArcs, h.branchLines, h.excluded]

theorem numbers (h : SameReporter a b) :
    a.numbers.statements = b.numbers.statements ∧ a.numbers.branches = b.numbers.branches := by
  refine ⟨congrArg SortedSet.size h.statements, ?_⟩
  show (if a.hasArcs then a.branchArcs.size else 0) = if b.hasArcs then b.branchArcs.size else 0
  rw [h.hasArcs, h.branchArcs]

end SameReporter

section Recorded

variable {reporter : Reporter} {a b : Analysis} {firstLines secondLines : LineSet}
  {firstArcs secondArcs : ArcSet}

theorem sameReporter_of_ofRecorded (ha : ofRecorded reporter firstLines firstArcs = .ok a)
    (hb : ofRecorded reporter secondLines secondArcs = .ok b) : SameReporter a b := by
  obtain ⟨lines, excluded, arcs, counts, noBranch, hlines, hexcluded, harcs, hsome, hnone, rfl⟩ :=
    ofRecorded_eq_ok_iff.1 ha
  obtain ⟨lines', excluded', arcs', counts', noBranch', hlines', hexcluded', harcs', hsome',
    hnone', rfl⟩ := ofRecorded_eq_ok_iff.1 hb
  obtain rfl : lines = lines' := Except.ok.inj (hlines.symm.trans hlines')
  obtain rfl : excluded = excluded' := Except.ok.inj (hexcluded.symm.trans hexcluded')
  obtain rfl : arcs = arcs' := Except.ok.inj (harcs.symm.trans harcs')
  have hfacts : counts = counts' ∧ noBranch = noBranch' := by
    by_cases hempty : arcs.isEmpty = true
    · obtain ⟨rfl, rfl⟩ := hnone hempty
      obtain ⟨rfl, rfl⟩ := hnone' hempty
      exact ⟨rfl, rfl⟩
    · have hfull := Bool.eq_false_iff.2 hempty
      exact ⟨Except.ok.inj ((hsome hfull).1.symm.trans (hsome' hfull).1),
        Except.ok.inj ((hsome hfull).2.symm.trans (hsome' hfull).2)⟩
  exact ⟨rfl, rfl, rfl, rfl, hfacts.1, hfacts.2⟩

end Recorded

/-! ## Two recordings taken together -/

/-- An analysis is of two recordings taken together, and the others are of each. -/
structure IsMerged (a b c : Analysis) : Prop where
  left : SameReporter a c
  right : SameReporter b c
  executed : c.executed = a.executed ∪ b.executed
  missing : c.missing = a.missing ∩ b.missing
  unpredicted : c.unpredicted = a.unpredicted ∪ b.unpredicted
  executedArcs : c.executedArcs = a.executedArcs ∪ b.executedArcs

/-- The analysis of two recordings together is the merged one of their analyses. -/
theorem isMerged_of_ofRecorded {reporter : Reporter} (htranslates : reporter.TranslatesUnions)
    {a b c : Analysis} {firstLines secondLines : LineSet} {firstArcs secondArcs : ArcSet}
    (ha : ofRecorded reporter firstLines firstArcs = .ok a)
    (hb : ofRecorded reporter secondLines secondArcs = .ok b)
    (hc : ofRecorded reporter (firstLines ∪ secondLines) (firstArcs ∪ secondArcs) = .ok c) :
    IsMerged a b c := by
  have hac := sameReporter_of_ofRecorded ha hc
  have hbc := sameReporter_of_ofRecorded hb hc
  obtain ⟨lines, _, _, _, _, hlines, -, -, -, -, -⟩ := ofRecorded_eq_ok_iff.1 hc
  obtain ⟨-, haran, hamissing, haunpredicted⟩ := lines_eq_of_ofRecorded ha hlines
  obtain ⟨-, hbran, hbmissing, hbunpredicted⟩ := lines_eq_of_ofRecorded hb hlines
  obtain ⟨-, hcran, hcmissing, hcunpredicted⟩ := lines_eq_of_ofRecorded hc hlines
  have hexecuted : c.executed = a.executed ∪ b.executed := by
    rw [hcran, haran, hbran, hac.statements, hbc.statements, htranslates.lines]
    ext line
    simp only [SortedSet.mem_inter, SortedSet.mem_union, or_and_right]
  refine ⟨hac, hbc, hexecuted, ?_, ?_, ?_⟩
  · rw [hcmissing, hamissing, hbmissing, hac.statements, hbc.statements, hexecuted]
    ext line
    simp only [SortedSet.mem_sdiff, SortedSet.mem_inter, SortedSet.mem_union]
    tauto
  · rw [hcunpredicted, haunpredicted, hbunpredicted, htranslates.lines]
    ext line
    simp only [SortedSet.mem_sdiff, SortedSet.mem_union, or_and_right]
  · rw [executedArcs_eq_of_ofRecorded hc, executedArcs_eq_of_ofRecorded ha,
      executedArcs_eq_of_ofRecorded hb, hac.possibleArcs, hbc.possibleArcs, htranslates.arcs]
    split
    · rfl
    · rfl

namespace IsMerged

variable {a b c : Analysis}

theorem symm (h : IsMerged a b c) : IsMerged b a c where
  left := h.right
  right := h.left
  executed := by rw [h.executed, SortedSet.union_comm]
  missing := by rw [h.missing, SortedSet.inter_comm]
  unpredicted := by rw [h.unpredicted, SortedSet.union_comm]
  executedArcs := by rw [h.executedArcs, SortedSet.union_comm]

theorem missingArcs (h : IsMerged a b c) : c.missingArcs = a.missingArcs ∩ b.missingArcs := by
  ext arc
  simp only [Analysis.missingArcs, SortedSet.mem_filter, SortedSet.mem_inter, h.executedArcs,
    SortedSet.mem_union, h.left.possibleArcs, h.left.noBranch, h.left.excluded,
    h.right.possibleArcs, h.right.noBranch, h.right.excluded, Bool.and_eq_true,
    decide_eq_true_iff]
  tauto

theorem unpredictedArcs (h : IsMerged a b c) :
    c.unpredictedArcs = a.unpredictedArcs ∪ b.unpredictedArcs := by
  ext arc
  simp only [Analysis.unpredictedArcs, SortedSet.mem_filter, h.executedArcs, SortedSet.mem_union,
    h.left.possibleArcs, h.right.possibleArcs, or_and_right]

theorem missingBranches (h : IsMerged a b c) :
    c.missingBranches = a.missingBranches ∩ b.missingBranches := by
  ext arc
  simp only [SortedSet.mem_inter, mem_missingBranches, h.executedArcs, SortedSet.mem_union,
    h.left.branchArcs, h.right.branchArcs]
  tauto

/-- A line misses the branches that it misses in both. -/
theorem get?_missingBranchArcs (h : IsMerged a b c) (line : Int) :
    c.missingBranchArcs.get? line =
      sharedTargets (a.missingBranchArcs.get? line) (b.missingBranchArcs.get? line) := by
  show (grouped c.missingBranches).get? line = _
  rw [h.missingBranches, get?_grouped_inter]
  rfl

/-- With more recorded, no more is missing of what could have run. -/
theorem numbers_le (h : IsMerged a b c) (ha : a.LooksAtArcs) (hc : c.LooksAtArcs) :
    c.numbers.missing ≤ a.numbers.missing ∧
      c.numbers.missingBranches ≤ a.numbers.missingBranches ∧
      a.numbers.executed + a.numbers.executedBranches ≤
        c.numbers.executed + c.numbers.executedBranches ∧
      c.numbers.statements + c.numbers.branches = a.numbers.statements + a.numbers.branches := by
  obtain ⟨hstatements, hbranches⟩ := h.left.numbers
  have hmissing : c.numbers.missing ≤ a.numbers.missing := by
    show c.missing.size ≤ a.missing.size
    rw [h.missing]
    exact SortedSet.size_inter_le _ _
  have hmissingBranches : c.numbers.missingBranches ≤ a.numbers.missingBranches := by
    rw [ha.missingBranches_numbers, hc.missingBranches_numbers, h.missingBranches]
    exact SortedSet.size_inter_le _ _
  have hexecuted (n : Numbers) : n.executed = n.statements - n.missing := rfl
  have htaken (n : Numbers) : n.executedBranches = n.branches - n.missingBranches := rfl
  refine ⟨hmissing, hmissingBranches, ?_, ?_⟩
  · rw [hexecuted, hexecuted, htaken, htaken]
    omega
  · omega

end IsMerged

/-- The analysis of two recordings taken together has what ran in either and misses what is
missing from both, of statements, arcs and branches line by line. What could have run is
the same. So neither count of what is missing is larger than for one recording, and what
ran is no less. This takes a translation that goes part by part, as one does that takes
lines and arcs one at a time. -/
theorem merging_recordings :
    (∀ reporter : Reporter, reporter.TranslatesOneByOne → reporter.TranslatesUnions) ∧
    ∀ reporter : Reporter, reporter.Answers → reporter.TranslatesUnions →
      ∀ (firstLines secondLines : LineSet) (firstArcs secondArcs : ArcSet),
      ∃ a b c, ofRecorded reporter firstLines firstArcs = .ok a ∧
        ofRecorded reporter secondLines secondArcs = .ok b ∧
        ofRecorded reporter (firstLines ∪ secondLines) (firstArcs ∪ secondArcs) = .ok c ∧
        (∀ one ∈ [a, b], c.statements = one.statements ∧ c.branchLines = one.branchLines ∧
          c.numbers.branches = one.numbers.branches) ∧
        (c.executed = a.executed ∪ b.executed ∧ c.unpredicted = a.unpredicted ∪ b.unpredicted ∧
          c.executedArcs = a.executedArcs ∪ b.executedArcs ∧
          c.unpredictedArcs = a.unpredictedArcs ∪ b.unpredictedArcs) ∧
        (c.missing = a.missing ∩ b.missing ∧ c.missingArcs = a.missingArcs ∩ b.missingArcs ∧
          ∀ line, c.missingBranchArcs.get? line =
            sharedTargets (a.missingBranchArcs.get? line) (b.missingBranchArcs.get? line)) ∧
        ∀ one ∈ [a, b], c.numbers.missing ≤ one.numbers.missing ∧
          c.numbers.missingBranches ≤ one.numbers.missingBranches ∧
          one.numbers.executed + one.numbers.executedBranches ≤
            c.numbers.executed + c.numbers.executedBranches ∧
          c.numbers.statements + c.numbers.branches =
            one.numbers.statements + one.numbers.branches := by
  refine ⟨fun _ => Reporter.TranslatesOneByOne.translatesUnions, ?_⟩
  intro reporter hanswers htranslates firstLines secondLines firstArcs secondArcs
  obtain ⟨a, ha⟩ := exists_ofRecorded_iff.2 hanswers
  obtain ⟨b, hb⟩ := exists_ofRecorded_iff.2 hanswers
  obtain ⟨c, hc⟩ := exists_ofRecorded_iff.2 hanswers
  have hmerged := isMerged_of_ofRecorded htranslates ha hb hc
  have hlooks := looksAtArcs_of_ofRecorded hc
  refine ⟨a, b, c, ha, hb, hc, ?_,
    ⟨hmerged.executed, hmerged.unpredicted, hmerged.executedArcs, hmerged.unpredictedArcs⟩,
    ⟨hmerged.missing, hmerged.missingArcs, hmerged.get?_missingBranchArcs⟩, ?_⟩
  · rw [List.forall_mem_cons, List.forall_mem_singleton]
    exact ⟨⟨hmerged.left.statements.symm, hmerged.left.branchLines.symm,
        hmerged.left.numbers.2.symm⟩,
      hmerged.right.statements.symm, hmerged.right.branchLines.symm,
      hmerged.right.numbers.2.symm⟩
  · rw [List.forall_mem_cons, List.forall_mem_singleton]
    exact ⟨hmerged.numbers_le (looksAtArcs_of_ofRecorded ha) hlooks,
      hmerged.symm.numbers_le (looksAtArcs_of_ofRecorded hb) hlooks⟩

/-! ## A page that is recorded twice -/

namespace Twice

/-- Line 9 is recorded for line 2. -/
def translate (line : Int) : Int := if line = 9 then 2 else line

/-- The reporter of a page whose first line goes on to any of the three others. -/
def reporter : Reporter where
  host := ⟨∅, []⟩
  filename := ⟨"/s/page"⟩
  lines := .ok (.ofList [1, 2, 3, 4])
  arcs := .ok (.ofList [⟨1, 2⟩, ⟨1, 3⟩, ⟨1, 4⟩])
  translateLines := SortedSet.image translate
  translateArcs := SortedSet.image fun arc => ⟨translate arc.source, translate arc.target⟩

/-- The page went to its second line once and to its third line another time, which with
both taken together leaves the fourth. -/
theorem merging_recordings_of_page :
    reporter.Answers ∧ reporter.TranslatesOneByOne ∧ reporter.TranslatesUnions ∧
      ∃ c, ofRecorded reporter (.ofList [1, 9] ∪ .ofList [1, 3, 7])
          (.ofList [⟨1, 9⟩] ∪ .ofList [⟨1, 3⟩]) = .ok c ∧
        c.missing = .ofList [4] ∧ c.unpredicted = .ofList [7] ∧
        c.missingBranchArcs.get? 1 = some [4] := by
  have hanswers : reporter.Answers :=
    ⟨⟨_, rfl⟩, ⟨_, rfl⟩, _, rfl, fun _ => ⟨⟨_, rfl⟩, _, rfl⟩⟩
  have honeByOne : reporter.TranslatesOneByOne := ⟨.inr ⟨_, rfl⟩, .inr ⟨_, rfl⟩⟩
  have htranslates := merging_recordings.1 reporter honeByOne
  obtain ⟨a, b, c, ha, hb, hc, -, ⟨-, hunpredicted, -, -⟩, ⟨hmissing, -, hbranches⟩, -⟩ :=
    merging_recordings.2 reporter hanswers htranslates (.ofList [1, 9]) (.ofList [1, 3, 7])
      (.ofList [⟨1, 9⟩]) (.ofList [⟨1, 3⟩])
  have hfirst : (ofRecorded reporter (.ofList [1, 9]) (.ofList [⟨1, 9⟩])).map
      (fun a => (a.missing, a.unpredicted, a.missingBranchArcs.get? 1)) =
        .ok (.ofList [3, 4], ∅, some [3, 4]) := by
    decide +kernel
  have hsecond : (ofRecorded reporter (.ofList [1, 3, 7]) (.ofList [⟨1, 3⟩])).map
      (fun b => (b.missing, b.unpredicted, b.missingBranchArcs.get? 1)) =
        .ok (.ofList [2, 4], .ofList [7], some [2, 4]) := by
    decide +kernel
  rw [ha] at hfirst
  rw [hb] at hsecond
  obtain ⟨hmissing₁, hunpredicted₁, hbranches₁⟩ := by
    simpa only [Except.map, Except.ok.injEq, Prod.mk.injEq] using hfirst
  obtain ⟨hmissing₂, hunpredicted₂, hbranches₂⟩ := by
    simpa only [Except.map, Except.ok.injEq, Prod.mk.injEq] using hsecond
  refine ⟨hanswers, honeByOne, htranslates, c, hc, ?_, ?_, ?_⟩
  · rw [hmissing, hmissing₁, hmissing₂]
    decide +kernel
  · rw [hunpredicted, hunpredicted₁, hunpredicted₂]
    decide +kernel
  · rw [hbranches, hbranches₁, hbranches₂]
    decide +kernel

end Twice

end Analysis

end Coverage
