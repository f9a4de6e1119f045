/-
# Totals over files

The counts of many files are added up, file by file or in partial totals that are added
to each other. A `Tally` is one way to do so. All of them come to the same counts, since
counts are added field by field.

What ran is a difference of two counts that is cut off at zero, and such differences need
not add up. They do here, because no analysis misses more than it counts: this is
`Numbers.IsSound`, which holds of every analysis and is kept by addition. So the share
that ran of all files is a mean of the shares of the files, weighted by what could have
run of each, and lies between the least and the greatest of them.
-/
import Coverage.Proofs.Analysis.Accounting
import Mathlib.Algebra.BigOperators.Group.List.Lemmas
import Mathlib.Algebra.Order.BigOperators.Group.List
import Mathlib.Algebra.Order.Field.Rat
import Mathlib.Data.Finset.Max
import Mathlib.Tactic.Ring

namespace Coverage

namespace Numbers

/-! ## Adding counts -/

variable {m n : Numbers} {counts : List Numbers}

instance : Zero Numbers := ⟨zero⟩

theorem add_def (m n : Numbers) : m + n = m.add n := rfl

theorem zero_def : (0 : Numbers) = zero := rfl

instance : AddCommMonoid Numbers where
  nsmul := nsmulRec
  add_assoc _ _ _ := by
    simp only [add_def, add, Nat.add_assoc]
  zero_add _ := by
    simp only [add_def, zero_def, add, zero, Nat.zero_add]
  add_zero _ := by
    simp only [add_def, zero_def, add, zero, Nat.add_zero]
  add_comm _ _ := by
    simp only [add_def, add, Nat.add_comm]

/-- Counts that miss no more than there is. -/
structure IsSound (n : Numbers) : Prop where
  missing_le : n.missing ≤ n.statements
  missingBranches_le : n.missingBranches ≤ n.branches

namespace IsSound

theorem zero : (0 : Numbers).IsSound := ⟨Nat.le_refl 0, Nat.le_refl 0⟩

theorem add (hm : m.IsSound) (hn : n.IsSound) : (m + n).IsSound where
  missing_le := Nat.add_le_add hm.missing_le hn.missing_le
  missingBranches_le := Nat.add_le_add hm.missingBranches_le hn.missingBranches_le

theorem executed_add_missing (hn : n.IsSound) : n.executed + n.missing = n.statements :=
  Nat.sub_add_cancel hn.missing_le

theorem executedBranches_add_missingBranches (hn : n.IsSound) :
    n.executedBranches + n.missingBranches = n.branches :=
  Nat.sub_add_cancel hn.missingBranches_le

/-- The statements that ran of two lots of files are those of each. -/
theorem executed_add (hm : m.IsSound) (hn : n.IsSound) :
    (m + n).executed = m.executed + n.executed :=
  (tsub_add_tsub_comm hm.missing_le hn.missing_le).symm

/-- The branches that were taken of two lots of files are those of each. -/
theorem executedBranches_add (hm : m.IsSound) (hn : n.IsSound) :
    (m + n).executedBranches = m.executedBranches + n.executedBranches :=
  (tsub_add_tsub_comm hm.missingBranches_le hn.missingBranches_le).symm

/-- What ran and what is missing is all there is. -/
theorem ratio_fst_add_missing (hn : n.IsSound) :
    n.ratio.1 + (n.missing + n.missingBranches) = n.ratio.2 := by
  have hstatements := hn.executed_add_missing
  have hbranches := hn.executedBranches_add_missingBranches
  simp only [ratio]
  omega

theorem sum (h : ∀ n ∈ counts, n.IsSound) : counts.sum.IsSound := by
  induction counts with
  | nil => exact .zero
  | cons n counts ih =>
    obtain ⟨hn, hcounts⟩ := List.forall_mem_cons.1 h
    rw [List.sum_cons]
    exact hn.add (ih hcounts)

/-- What adds up over two lots of files adds up over all of them. -/
theorem map_sum {M : Type} [AddMonoid M] (f : Numbers → M) (hzero : f 0 = 0)
    (hadd : ∀ m n : Numbers, m.IsSound → n.IsSound → f (m + n) = f m + f n)
    (h : ∀ n ∈ counts, n.IsSound) : f counts.sum = (counts.map f).sum := by
  induction counts with
  | nil => exact hzero
  | cons n counts ih =>
    obtain ⟨hn, hcounts⟩ := List.forall_mem_cons.1 h
    rw [List.sum_cons, hadd n _ hn (.sum hcounts), ih hcounts, List.map_cons, List.sum_cons]

/-- Files miss nothing together exactly when none of them does. -/
theorem missing_sum_eq_zero_iff (h : ∀ n ∈ counts, n.IsSound) :
    counts.sum.missing + counts.sum.missingBranches = 0 ↔
      ∀ n ∈ counts, n.missing = 0 ∧ n.missingBranches = 0 := by
  rw [Nat.add_eq_zero_iff, map_sum missing rfl (fun _ _ _ _ => rfl) h,
    map_sum missingBranches rfl (fun _ _ _ _ => rfl) h, List.sum_eq_zero_iff,
    List.sum_eq_zero_iff, List.forall_mem_map, List.forall_mem_map, ← forall₂_and]

end IsSound

/-! ## Shares -/

/-- The share that ran of what could have run. -/
def share (n : Numbers) : ℚ := n.ratio.1 / n.ratio.2

/-- What ran beyond a given share of what could have run. -/
def excess (bound : ℚ) (n : Numbers) : ℚ := n.ratio.1 - bound * n.ratio.2

variable {bound : ℚ}

theorem le_share_iff (hsome : n.ratio.2 ≠ 0) : bound ≤ n.share ↔ 0 ≤ n.excess bound := by
  have hpos : (0 : ℚ) < n.ratio.2 := Nat.cast_pos.2 (Nat.pos_of_ne_zero hsome)
  rw [share, excess, le_div_iff₀ hpos, sub_nonneg]

theorem share_le_iff (hsome : n.ratio.2 ≠ 0) : n.share ≤ bound ↔ n.excess bound ≤ 0 := by
  have hpos : (0 : ℚ) < n.ratio.2 := Nat.cast_pos.2 (Nat.pos_of_ne_zero hsome)
  rw [share, excess, div_le_iff₀ hpos, sub_nonpos]

namespace IsSound

/-- Where nothing could have run, nothing ran. -/
theorem excess_eq_zero (hn : n.IsSound) (hnone : n.ratio.2 = 0) : n.excess bound = 0 := by
  have hran := hn.ratio_fst_add_missing
  have hzero : n.ratio.1 = 0 := by omega
  rw [excess, hzero, hnone, Nat.cast_zero, mul_zero, sub_zero]

theorem ratio_snd_sum (h : ∀ n ∈ counts, n.IsSound) :
    counts.sum.ratio.2 = (counts.map (·.ratio.2)).sum :=
  map_sum (·.ratio.2) rfl (fun _ _ _ _ => Nat.add_add_add_comm ..) h

theorem excess_sum (bound : ℚ) (h : ∀ n ∈ counts, n.IsSound) :
    counts.sum.excess bound = (counts.map (excess bound)).sum := by
  refine map_sum (excess bound) (excess_eq_zero zero rfl) (fun m n hm hn => ?_) h
  have hran : (m + n).ratio.1 = m.ratio.1 + n.ratio.1 := by
    simp only [ratio, executed_add hm hn, executedBranches_add hm hn]
    omega
  have hpossible : (m + n).ratio.2 = m.ratio.2 + n.ratio.2 := Nat.add_add_add_comm ..
  rw [excess, excess, excess, hran, hpossible, Nat.cast_add, Nat.cast_add]
  ring

/-- Files of which each ran to a given share at least ran to that share together. -/
theorem le_share_sum (h : ∀ n ∈ counts, n.IsSound) (hsome : counts.sum.ratio.2 ≠ 0)
    (hbound : ∀ n ∈ counts, n.ratio.2 ≠ 0 → bound ≤ n.share) : bound ≤ counts.sum.share := by
  rw [le_share_iff hsome, excess_sum bound h]
  apply List.sum_nonneg
  intro beyond hexcess
  obtain ⟨n, hn, rfl⟩ := List.mem_map.1 hexcess
  by_cases hnone : n.ratio.2 = 0
  · exact (excess_eq_zero (h n hn) hnone).ge
  · exact (le_share_iff hnone).1 (hbound n hn hnone)

/-- Files of which each ran to a given share at most ran to that share together. -/
theorem share_sum_le (h : ∀ n ∈ counts, n.IsSound) (hsome : counts.sum.ratio.2 ≠ 0)
    (hbound : ∀ n ∈ counts, n.ratio.2 ≠ 0 → n.share ≤ bound) : counts.sum.share ≤ bound := by
  rw [share_le_iff hsome, excess_sum bound h]
  have hnonpos : ∀ beyond ∈ counts.map (excess bound), beyond ≤ 0 := by
    intro beyond hexcess
    obtain ⟨n, hn, rfl⟩ := List.mem_map.1 hexcess
    by_cases hnone : n.ratio.2 = 0
    · exact (excess_eq_zero (h n hn) hnone).le
    · exact (share_le_iff hnone).1 (hbound n hn hnone)
  exact (List.sum_le_card_nsmul _ 0 hnonpos).trans (nsmul_zero _).le

end IsSound

end Numbers

namespace Analysis

/-! ## Ways to add up -/

/-- A way to add up the counts of analyzed files. -/
inductive Tally where
  /-- No file yet. -/
  | none
  | file (a : Analysis)
  /-- A further total is added to a total. -/
  | plus (total further : Tally)

namespace Tally

/-- The files of a tally, in the order in which they are added. -/
def files : Tally → List Analysis
  | none => []
  | file a => [a]
  | plus total further => total.files ++ further.files

/-- The counts that a tally comes to. -/
def numbers : Tally → Numbers
  | none => .zero
  | file a => a.numbers
  | plus total further => total.numbers + further.numbers

theorem numbers_eq (tally : Tally) :
    tally.numbers = (tally.files.map Analysis.numbers).sum := by
  induction tally with
  | none => rfl
  | file a => exact (List.sum_singleton).symm
  | plus total further ihtotal ihfurther =>
    rw [numbers, files, ihtotal, ihfurther, List.map_append, List.sum_append]

end Tally

/-- The counts of files that are added up one by one. -/
def total (analyses : List Analysis) : Numbers :=
  analyses.foldl (fun total a => total + a.numbers) .zero

theorem total_eq (analyses : List Analysis) : total analyses = (analyses.map numbers).sum := by
  rw [total, ← List.foldl_map, List.sum_eq_foldl]
  rfl

/-- An analysis that was made of a recording. -/
def IsRecorded (a : Analysis) : Prop :=
  ∃ reporter recordedLines recordedArcs, ofRecorded reporter recordedLines recordedArcs = .ok a

theorem IsRecorded.isSound {a : Analysis} (h : a.IsRecorded) : a.numbers.IsSound := by
  obtain ⟨reporter, recordedLines, recordedArcs, ha⟩ := h
  obtain ⟨lines, -, -, -, -, hlines, -⟩ := ofRecorded_eq_ok_iff.1 ha
  constructor
  · have hstatements := (statements_isSplitInto ha hlines).size_eq
    have hcount : a.numbers.statements = a.statements.size := rfl
    have hmissed : a.numbers.missing = a.missing.toList.length := rfl
    rw [hcount, hmissed, hstatements]
    simp
  · have hbranches := (looksAtArcs_of_ofRecorded ha).branches_numbers_eq_add
    omega

/-- There is no group of missing branches exactly when no branch is missing. -/
theorem missingBranchArcs_eq_empty_iff (a : Analysis) :
    a.missingBranchArcs = ∅ ↔ a.missingBranches = ∅ := by
  have hgroups : a.missingBranchArcs = grouped a.missingBranches := rfl
  constructor
  · intro h
    ext arc
    refine iff_of_false (fun harc => ?_) (SortedSet.not_mem_empty arc)
    obtain ⟨group, hgroup, -⟩ := mem_grouped.2 harc
    rw [← hgroups, h] at hgroup
    cases hgroup
  · intro h
    rw [hgroups, h]
    rfl

theorem IsRecorded.missing_eq_zero_iff {a : Analysis} (h : a.IsRecorded) :
    a.numbers.missing = 0 ∧ a.numbers.missingBranches = 0 ↔
      a.missing = ∅ ∧ a.missingBranchArcs = ∅ := by
  obtain ⟨reporter, recordedLines, recordedArcs, ha⟩ := h
  have hempty {α : Type} [Ord α] {s : SortedSet α} : s.size = 0 ↔ s = ∅ := by
    rw [SortedSet.size, List.length_eq_zero_iff]
    constructor
    · intro hs
      cases s
      cases hs
      rfl
    · exact congrArg SortedSet.toList
  rw [missingBranchArcs_eq_empty_iff, (looksAtArcs_of_ofRecorded ha).missingBranches_numbers]
  exact and_congr hempty hempty

/-- However the counts of analyzed files are added up, they come to one total. What ran of
all files is what ran of each, at most what could have run, and all of that exactly when no
file misses anything. The share that ran is no less than the least and no more than the
greatest share of a file in which something could have run. -/
theorem totals_of_files (analyses : List Analysis) (h : ∀ a ∈ analyses, a.IsRecorded) :
    (∀ tally : Tally, tally.files.Perm analyses → tally.numbers = total analyses) ∧
    (total analyses).executed = (analyses.map (·.numbers.executed)).sum ∧
    (total analyses).executedBranches = (analyses.map (·.numbers.executedBranches)).sum ∧
    (total analyses).ratio.1 ≤ (total analyses).ratio.2 ∧
    ((total analyses).ratio.1 = (total analyses).ratio.2 ↔
      ∀ a ∈ analyses, a.missing = ∅ ∧ a.missingBranchArcs = ∅) ∧
    ((∃ a ∈ analyses, a.numbers.ratio.2 ≠ 0) →
      (total analyses).ratio.2 ≠ 0 ∧
      ∃ least ∈ analyses, ∃ greatest ∈ analyses,
        least.numbers.ratio.2 ≠ 0 ∧ greatest.numbers.ratio.2 ≠ 0 ∧
        (∀ a ∈ analyses, a.numbers.ratio.2 ≠ 0 →
          least.numbers.share ≤ a.numbers.share ∧ a.numbers.share ≤ greatest.numbers.share) ∧
        least.numbers.share ≤ (total analyses).share ∧
        (total analyses).share ≤ greatest.numbers.share) := by
  have hsound : ∀ n ∈ analyses.map numbers, n.IsSound := by
    intro n hn
    obtain ⟨a, ha, rfl⟩ := List.mem_map.1 hn
    exact (h a ha).isSound
  have htotal : total analyses = (analyses.map numbers).sum := total_eq analyses
  have hran := (total_eq analyses ▸ Numbers.IsSound.sum hsound).ratio_fst_add_missing
  refine ⟨fun tally hfiles => ?_, ?_, ?_, by omega, ?full, ?between⟩
  · rw [tally.numbers_eq, htotal, (hfiles.map numbers).sum_eq]
  · rw [htotal, Numbers.IsSound.map_sum Numbers.executed rfl
      (fun _ _ => Numbers.IsSound.executed_add) hsound, List.map_map]
    rfl
  · rw [htotal, Numbers.IsSound.map_sum Numbers.executedBranches rfl
      (fun _ _ => Numbers.IsSound.executedBranches_add) hsound, List.map_map]
    rfl
  case full =>
    have hnone : (total analyses).missing + (total analyses).missingBranches = 0 ↔
        ∀ a ∈ analyses, a.numbers.missing = 0 ∧ a.numbers.missingBranches = 0 := by
      rw [htotal, Numbers.IsSound.missing_sum_eq_zero_iff hsound, List.forall_mem_map]
    have hwhole : (total analyses).ratio.1 = (total analyses).ratio.2 ↔
        (total analyses).missing + (total analyses).missingBranches = 0 := by
      omega
    rw [hwhole, hnone]
    exact forall₂_congr fun a ha => (h a ha).missing_eq_zero_iff
  case between =>
    rintro ⟨some, hmem, hsome⟩
    have hpossible : (total analyses).ratio.2 ≠ 0 := by
      rw [htotal, Numbers.IsSound.ratio_snd_sum hsound, Ne, List.sum_eq_zero_iff]
      exact fun hzero => hsome (hzero _ (List.mem_map_of_mem (List.mem_map_of_mem hmem)))
    -- The least and the greatest share are taken over the files that have one.
    have hfiles : (↑(analyses.filter (·.numbers.ratio.2 ≠ 0)) : Multiset Analysis) ≠ 0 := by
      rw [Ne, Multiset.coe_eq_zero]
      exact List.ne_nil_of_mem (List.mem_filter.2 ⟨hmem, decide_eq_true hsome⟩)
    obtain ⟨least, hleast, hmin⟩ := Multiset.exists_min_image (·.numbers.share) hfiles
    obtain ⟨greatest, hgreatest, hmax⟩ := Multiset.exists_max_image (·.numbers.share) hfiles
    simp only [Multiset.mem_coe, List.mem_filter, decide_eq_true_iff, and_imp]
      at hleast hgreatest hmin hmax
    refine ⟨hpossible, least, hleast.1, greatest, hgreatest.1, hleast.2, hgreatest.2,
      fun a ha hne => ⟨hmin a ha hne, hmax a ha hne⟩, ?_, ?_⟩
    · rw [htotal] at hpossible ⊢
      exact Numbers.IsSound.le_share_sum hsound hpossible (List.forall_mem_map.2 hmin)
    · rw [htotal] at hpossible ⊢
      exact Numbers.IsSound.share_sum_le hsound hpossible (List.forall_mem_map.2 hmax)

/-! ## Three pages -/

namespace Site

/-- The reporter of a page with the given lines and ways on. -/
def reporter (lines : List Int) (arcs : List Arc) : Reporter where
  host := ⟨∅, []⟩
  filename := ⟨"/s/page"⟩
  lines := .ok (.ofList lines)
  arcs := .ok (.ofList arcs)

/-- A page took one of two ways on, one ran as a whole, and one is blank. Four of six
statements and branches ran of them, in whatever order they are counted. -/
theorem totals_of_site :
    ∃ forked whole blank,
      ofRecorded (reporter [1, 2, 3] [⟨1, 2⟩, ⟨1, 3⟩]) (.ofList [1, 2]) (.ofList [⟨1, 2⟩]) =
        .ok forked ∧
      ofRecorded (reporter [1] []) (.ofList [1]) ∅ = .ok whole ∧
      ofRecorded (reporter [] []) ∅ ∅ = .ok blank ∧
      let pages := [forked, whole, blank]
      (∀ a ∈ pages, a.IsRecorded) ∧
      (Tally.plus (.file blank) (.plus (.plus .none (.file whole)) (.file forked))).numbers =
        total pages ∧
      (total pages).ratio = (4, 6) ∧
      ∃ least ∈ pages, ∃ greatest ∈ pages,
        least.numbers.share ≤ (total pages).share ∧
        (total pages).share ≤ greatest.numbers.share := by
  have hanswers (lines : List Int) (arcs : List Arc) : (reporter lines arcs).Answers :=
    ⟨⟨_, rfl⟩, ⟨_, rfl⟩, _, rfl, fun _ => ⟨⟨_, rfl⟩, _, rfl⟩⟩
  obtain ⟨forked, hforked⟩ := exists_ofRecorded_iff.2 (hanswers [1, 2, 3] [⟨1, 2⟩, ⟨1, 3⟩])
  obtain ⟨whole, hwhole⟩ := exists_ofRecorded_iff.2 (hanswers [1] [])
  obtain ⟨blank, hblank⟩ := exists_ofRecorded_iff.2 (hanswers [] [])
  refine ⟨forked, whole, blank, hforked, hwhole, hblank, ?_⟩
  intro pages
  have hrecorded : ∀ a ∈ pages, a.IsRecorded := by
    simp only [pages, List.forall_mem_cons]
    exact ⟨⟨_, _, _, hforked⟩, ⟨_, _, _, hwhole⟩, ⟨_, _, _, hblank⟩, by simp⟩
  obtain ⟨hsame, -, -, -, -, hbetween⟩ := totals_of_files pages hrecorded
  have hnumbers {made : Except Failure Analysis} {a : Analysis} {n : Numbers}
      (hmade : made = .ok a) (hcounts : made.map numbers = .ok n) : a.numbers = n := by
    rw [hmade] at hcounts
    exact Except.ok.inj hcounts
  have hforkedNumbers : forked.numbers = ⟨1, 3, 0, 1, 2, 1, 1⟩ :=
    hnumbers hforked (by decide +kernel)
  have hwholeNumbers : whole.numbers = ⟨1, 1, 0, 0, 0, 0, 0⟩ := hnumbers hwhole (by decide +kernel)
  have hblankNumbers : blank.numbers = ⟨1, 0, 0, 0, 0, 0, 0⟩ := hnumbers hblank (by decide +kernel)
  have htotal : (total pages).ratio = (4, 6) := by
    simp only [pages, total, List.foldl_cons, List.foldl_nil, hforkedNumbers, hwholeNumbers,
      hblankNumbers]
    rfl
  obtain ⟨-, least, hleast, greatest, hgreatest, -, -, -, hlow, hhigh⟩ :=
    hbetween ⟨forked, List.mem_cons_self, by rw [hforkedNumbers]; decide⟩
  refine ⟨hrecorded, hsame _ ?_, htotal, least, hleast, greatest, hgreatest, hlow, hhigh⟩
  exact List.reverse_perm [forked, whole, blank]

end Site

end Analysis

end Coverage
