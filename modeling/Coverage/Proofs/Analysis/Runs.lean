/-
# Runs of missing statements

The text of what is missing is read off the statements in one pass that keeps the first
and the last line of the run it is in. Here the same pass keeps all lines of the run.
Put one after the other, the runs are the missing lines, and a run is in the result
exactly when it stands together among the statements and has no missing statement
before or after it.

So the text says no more and no less than what is missing: its ranges hold the missing
statements and no other, and the statements and the texts of the ranges determine which
ones are missing.
-/
import Coverage.Proofs.Analysis.Partial

namespace Coverage

namespace Analysis

/-! ## Runs with all their lines -/

/-- Lines that stand together in a list and are all missing. Neither the line before
them nor the line after them is missing. -/
structure IsMissingRun (missing : LineSet) (lines run : List Int) : Prop where
  ne_nil : run ≠ []
  forall_mem : ∀ line ∈ run, line ∈ missing
  maximal : ∃ before after, lines = before ++ run ++ after ∧
    (∀ line ∈ before.getLast?, line ∉ missing) ∧ ∀ line ∈ after.head?, line ∉ missing

/-- The first and the last line of a run. -/
def ends (run : List Int) : Int × Int := (run.headD 0, run.getLastD 0)

/-- The text of a run: its line if there is one only, otherwise the first and the last. -/
def runText (run : List Int) : String :=
  match run with
  | [line] => toString line
  | _ => toString (ends run).1 ++ "-" ++ toString (ends run).2

/-- A run that ends here, if it was begun. -/
def finished (run : List Int) : List (List Int) := if run = [] then [] else [run]

/-- The runs of missing lines of a list, after the lines of a run that is not finished. -/
def runsFrom (missing : LineSet) : List Int → List Int → List (List Int)
  | run, [] => finished run
  | run, line :: rest =>
    if line ∈ missing then runsFrom missing (run ++ [line]) rest
    else finished run ++ runsFrom missing [] rest

variable {missing : LineSet} {run block lines rest : List Int} {line : Int}

theorem mem_finished : block ∈ finished run ↔ run ≠ [] ∧ block = run := by
  rw [finished]
  split
  · next hnil => simp [hnil]
  · next hne => simp [hne]

theorem flatten_finished (run : List Int) : (finished run).flatten = run := by
  rw [finished]
  split
  · next hnil => simp [hnil]
  · simp

/-- The ends of the run that is not finished, if it was begun. -/
def openEnds (run : List Int) : Option (Int × Int) := if run = [] then none else some (ends run)

theorem toList_openEnds (run : List Int) : (openEnds run).toList = (finished run).map ends := by
  rw [openEnds, finished]
  split
  · rfl
  · rfl

theorem openEnds_append (run : List Int) (line : Int) :
    openEnds (run ++ [line]) = some (((openEnds run).map (·.1)).getD line, line) := by
  have hne : run ++ [line] ≠ [] := List.append_ne_nil_of_right_ne_nil _ (List.cons_ne_nil _ _)
  rw [openEnds, if_neg hne, ends, List.getLastD_concat]
  cases run with
  | nil => rfl
  | cons first run => rfl

/-- A pass that keeps the ends of runs is one that keeps all their lines, seen by the ends. -/
theorem missingRuns_eq (missing : LineSet) (run lines : List Int) :
    missingRuns missing (openEnds run) lines = (runsFrom missing run lines).map ends := by
  induction lines generalizing run with
  | nil => exact toList_openEnds run
  | cons line rest ih =>
    rw [missingRuns, runsFrom]
    split
    · rw [← openEnds_append, ih]
    · rw [List.map_append, ← toList_openEnds, ← ih]
      rfl

/-- Every missing line stands in one run, and runs and lines keep their order. -/
theorem flatten_runsFrom (missing : LineSet) (run lines : List Int) :
    (runsFrom missing run lines).flatten = run ++ lines.filter (· ∈ missing) := by
  induction lines generalizing run with
  | nil => rw [runsFrom, flatten_finished, List.filter_nil, List.append_nil]
  | cons line rest ih =>
    rw [runsFrom]
    split
    · next hline =>
      rw [ih, List.filter_cons, if_pos (decide_eq_true hline), List.append_assoc]
      rfl
    · next hline =>
      have hnot : ¬ decide (line ∈ missing) = true := fun h => hline (of_decide_eq_true h)
      rw [List.flatten_append, flatten_finished, ih, List.filter_cons, if_neg hnot,
        List.nil_append]

/-! ## The runs are the maximal ones -/

/-- Of missing lines that a line follows which is not missing, none is left over. -/
theorem eq_nil_of_getLast? (hall : ∀ line ∈ run, line ∈ missing)
    (hlast : ∀ line ∈ run.getLast?, line ∉ missing) : run = [] := by
  cases hfound : run.getLast? with
  | none => exact List.getLast?_eq_none_iff.1 hfound
  | some line => exact absurd (hall line (List.mem_of_getLast? hfound)) (hlast line hfound)

theorem eq_nil_of_head? (hall : ∀ line ∈ run, line ∈ missing)
    (hfirst : ∀ line ∈ run.head?, line ∉ missing) : run = [] := by
  cases run with
  | nil => rfl
  | cons line run => exact absurd (hall line List.mem_cons_self) (hfirst line rfl)

/-- Where all lines are missing, they are the only run. -/
theorem isMissingRun_iff_of_forall_mem (hall : ∀ line ∈ run, line ∈ missing) :
    IsMissingRun missing run block ↔ run ≠ [] ∧ block = run := by
  constructor
  · intro h
    obtain ⟨before, after, rfl, hbefore, hafter⟩ := h.maximal
    simp only [List.forall_mem_append] at hall
    obtain rfl := eq_nil_of_getLast? hall.1.1 hbefore
    obtain rfl := eq_nil_of_head? hall.2 hafter
    rw [List.nil_append, List.append_nil]
    exact ⟨h.ne_nil, rfl⟩
  · intro h
    obtain ⟨hne, rfl⟩ := h
    exact ⟨hne, hall, [], [], (List.append_nil _).symm, nofun, nofun⟩

/-- A line that is not missing ends the run before it. -/
theorem isMissingRun_append_cons_iff (hall : ∀ line ∈ run, line ∈ missing)
    (hline : line ∉ missing) :
    IsMissingRun missing (run ++ line :: rest) block ↔
      (run ≠ [] ∧ block = run) ∨ IsMissingRun missing rest block := by
  constructor
  · intro h
    obtain ⟨before, after, hsplit, hbefore, hafter⟩ := h.maximal
    have hnot : line ∉ block := fun hmem => hline (h.forall_mem line hmem)
    rw [List.append_assoc, List.append_eq_append_iff] at hsplit
    rcases hsplit with ⟨between, rfl, hrest⟩ | ⟨between, rfl, hblock⟩
    · -- The run starts behind the line, or at the line, which is not missing.
      right
      cases between with
      | nil =>
        rw [List.nil_append] at hrest
        obtain ⟨hnil, -⟩ | ⟨tail, rfl, -⟩ := List.append_eq_cons_iff.1 hrest.symm
        · exact absurd hnil h.ne_nil
        · exact absurd List.mem_cons_self hnot
      | cons first between =>
        obtain ⟨rfl, rfl⟩ := List.cons_eq_cons.1 hrest
        refine ⟨h.ne_nil, h.forall_mem, between, after, (List.append_assoc ..).symm, ?_, hafter⟩
        intro last hlast
        apply hbefore last
        rw [List.getLast?_append, List.getLast?_cons, Option.mem_def.1 hlast]
        rfl
    · -- The run starts before the line, so it is what precedes the line.
      left
      rw [List.forall_mem_append] at hall
      obtain rfl := eq_nil_of_getLast? hall.1 hbefore
      rw [List.append_eq_append_iff] at hblock
      rcases hblock with ⟨tail, rfl, hafter'⟩ | ⟨tail, rfl, hrest⟩
      · rw [List.forall_mem_append] at hall
        have htail : tail = [] := by
          apply eq_nil_of_head? hall.2.2
          intro first hfirst
          apply hafter first
          rw [hafter', List.head?_append, Option.mem_def.1 hfirst]
          rfl
        subst htail
        rw [List.nil_append, List.append_nil]
        exact ⟨h.ne_nil, rfl⟩
      · obtain ⟨rfl, -⟩ | ⟨tail, rfl, -⟩ := List.append_eq_cons_iff.1 hrest.symm
        · rw [List.nil_append, List.append_nil]
          exact ⟨fun hnil => h.ne_nil (by rw [hnil]; rfl), rfl⟩
        · exact absurd (List.mem_append_right _ List.mem_cons_self) hnot
  · intro h
    rcases h with ⟨hne, rfl⟩ | h
    · refine ⟨hne, hall, [], line :: rest, rfl, nofun, ?_⟩
      intro first hfirst
      rw [List.head?_cons, Option.mem_def, Option.some.injEq] at hfirst
      exact hfirst ▸ hline
    · obtain ⟨before, after, rfl, hbefore, hafter⟩ := h.maximal
      refine ⟨h.ne_nil, h.forall_mem, run ++ line :: before, after, by simp, ?_, hafter⟩
      intro last hlast
      rw [List.getLast?_append, List.getLast?_cons] at hlast
      cases hfound : before.getLast? with
      | none =>
        rw [hfound] at hlast
        cases hlast
        exact hline
      | some other =>
        rw [hfound] at hlast
        cases hlast
        exact hbefore _ hfound

/-- The pass finds the maximal runs of missing lines and nothing else. -/
theorem mem_runsFrom_iff (hall : ∀ line ∈ run, line ∈ missing) :
    block ∈ runsFrom missing run lines ↔ IsMissingRun missing (run ++ lines) block := by
  induction lines generalizing run with
  | nil => rw [runsFrom, mem_finished, List.append_nil, isMissingRun_iff_of_forall_mem hall]
  | cons line rest ih =>
    rw [runsFrom]
    split
    · next hline =>
      have hmore : ∀ other ∈ run ++ [line], other ∈ missing := by
        rw [List.forall_mem_append]
        exact ⟨hall, List.forall_mem_singleton.2 hline⟩
      rw [ih hmore, List.append_assoc]
      rfl
    · next hline =>
      have hempty : ∀ other ∈ ([] : List Int), other ∈ missing := nofun
      rw [List.mem_append, mem_finished, ih hempty, isMissingRun_append_cons_iff hall hline]
      rfl

/-! ## Ranges -/

theorem ends_mem (hne : run ≠ []) : (ends run).1 ∈ run ∧ (ends run).2 ∈ run := by
  cases run with
  | nil => exact absurd rfl hne
  | cons first run =>
    refine ⟨List.mem_cons_self, ?_⟩
    rw [ends, List.getLastD_cons]
    exact List.getLastD_mem_cons ..

/-- The lines of a run lie between its ends. -/
theorem ends_le (hascending : run.Pairwise (· < ·)) (hline : line ∈ run) :
    (ends run).1 ≤ line ∧ line ≤ (ends run).2 := by
  have hfirst : (ends run).1 ≤ line := by
    cases run with
    | nil => cases hline
    | cons first run =>
      rcases List.mem_cons.1 hline with rfl | hrest
      · exact Int.le_refl _
      · exact Int.le_of_lt (List.rel_of_pairwise_cons hascending hrest)
  have hlast : line ≤ (ends run).2 := by
    rcases List.eq_nil_or_concat' run with rfl | ⟨initial, last, rfl⟩
    · cases hline
    · rw [ends, List.getLastD_concat]
      rcases List.mem_append.1 hline with hinitial | hlast
      · exact Int.le_of_lt
          ((List.pairwise_append.1 hascending).2.2 line hinitial last List.mem_cons_self)
      · exact Int.le_of_eq (List.mem_singleton.1 hlast)
  exact ⟨hfirst, hlast⟩

/-- Of ascending lines, a run has all that lie between its ends. -/
theorem IsMissingRun.mem_iff (h : IsMissingRun missing lines run)
    (hascending : lines.Pairwise (· < ·)) :
    line ∈ run ↔ line ∈ lines ∧ (ends run).1 ≤ line ∧ line ≤ (ends run).2 := by
  obtain ⟨before, after, rfl, -, -⟩ := h.maximal
  obtain ⟨hleft, -, hafter⟩ := List.pairwise_append.1 hascending
  obtain ⟨-, hrun, hbefore⟩ := List.pairwise_append.1 hleft
  obtain ⟨hfirst, hlast⟩ := ends_mem h.ne_nil
  refine ⟨fun hline => ⟨?_, ends_le hrun hline⟩, fun hline => ?_⟩
  · exact List.mem_append_left _ (List.mem_append_right _ hline)
  · obtain ⟨hmem, hlow, hhigh⟩ := hline
    rcases List.mem_append.1 hmem with hmem | hmem
    · rcases List.mem_append.1 hmem with hmem | hmem
      · exact absurd (hbefore line hmem _ hfirst) (Int.not_lt.2 hlow)
      · exact hmem
    · have hlate := hafter _ (List.mem_append_right _ hlast) line hmem
      exact absurd hlate (Int.not_lt.2 hhigh)

/-- The range of a run is written as the run is. -/
theorem renderRun_ends (hne : run ≠ []) (hascending : run.Pairwise (· < ·)) :
    renderRun (ends run) = runText run := by
  match run with
  | [] => exact absurd rfl hne
  | [line] => exact if_pos rfl
  | first :: next :: rest =>
    have hlast : (ends (first :: next :: rest)).2 ∈ next :: rest := by
      rw [ends, List.getLastD_cons, List.getLastD_cons]
      exact List.getLastD_mem_cons ..
    have hlt : first < (ends (first :: next :: rest)).2 :=
      List.rel_of_pairwise_cons hascending hlast
    exact if_neg (Int.ne_of_lt hlt)

/-! ## Ranges can be read back -/

/-- Text that does not go on with a digit. -/
def EndsNumber (text : List Char) : Prop := text.takeWhile Char.isDigit = []

theorem eq_of_toDigits_append {m n : Nat} {text other : List Char} (htext : EndsNumber text)
    (hother : EndsNumber other)
    (h : Nat.toDigits 10 m ++ text = Nat.toDigits 10 n ++ other) : m = n ∧ text = other := by
  have hdigits : ∀ (k : Nat) (rest : List Char), EndsNumber rest →
      (Nat.toDigits 10 k ++ rest).takeWhile Char.isDigit = Nat.toDigits 10 k := by
    intro k rest hrest
    have hall : ∀ c ∈ Nat.toDigits 10 k, c.isDigit = true := fun c hc =>
      Nat.isDigit_of_mem_toDigits (by decide) (by decide) hc
    rw [List.takeWhile_append_of_pos hall, hrest, List.append_nil]
  have hsame : Nat.toDigits 10 m = Nat.toDigits 10 n := by
    rw [← hdigits m text htext, h, hdigits n other hother]
  refine ⟨?_, ?_⟩
  · rw [← @Nat.ofDigitChars_ten_toDigits m, hsame, Nat.ofDigitChars_ten_toDigits]
  · rw [hsame] at h
    exact List.append_cancel_left h

theorem toDigits_append_ne (k : Nat) (text other : List Char) :
    Nat.toDigits 10 k ++ text ≠ '-' :: other := by
  intro h
  cases hdigits : Nat.toDigits 10 k with
  | nil => exact Nat.toDigits_ne_nil hdigits
  | cons c digits =>
    rw [hdigits, List.cons_append, List.cons_eq_cons] at h
    have hdigit : c.isDigit = true :=
      Nat.isDigit_of_mem_toDigits (b := 10) (n := k) (by decide) (by decide)
        (hdigits ▸ List.mem_cons_self)
    rw [h.1] at hdigit
    cases hdigit

theorem toList_toString (n : Int) :
    (toString n).toList =
      if 0 ≤ n then Nat.toDigits 10 n.toNat else '-' :: Nat.toDigits 10 (-n).toNat := by
  rw [Int.toString_eq_repr, Int.repr_eq_if]
  split
  · exact Nat.toList_repr
  · rw [String.toList_append, Nat.toList_repr]
    simp

/-- A number can be read off a text that it starts. -/
theorem eq_of_toString_append {m n : Int} {text other : List Char} (htext : EndsNumber text)
    (hother : EndsNumber other) (h : (toString m).toList ++ text = (toString n).toList ++ other) :
    m = n ∧ text = other := by
  rw [toList_toString, toList_toString] at h
  by_cases hm : 0 ≤ m
  · by_cases hn : 0 ≤ n
    · rw [if_pos hm, if_pos hn] at h
      obtain ⟨hvalue, hrest⟩ := eq_of_toDigits_append htext hother h
      exact ⟨by omega, hrest⟩
    · rw [if_pos hm, if_neg hn] at h
      exact absurd h (toDigits_append_ne _ _ _)
  · by_cases hn : 0 ≤ n
    · rw [if_neg hm, if_pos hn] at h
      exact absurd h.symm (toDigits_append_ne _ _ _)
    · rw [if_neg hm, if_neg hn, List.cons_append, List.cons_append, List.cons_eq_cons] at h
      obtain ⟨hvalue, hrest⟩ := eq_of_toDigits_append htext hother h.2
      exact ⟨by omega, hrest⟩

theorem eq_of_toList_toString {m n : Int} (h : (toString m).toList = (toString n).toList) :
    m = n := by
  have happend : (toString m).toList ++ [] = (toString n).toList ++ [] := by rw [h]
  have hnil : EndsNumber [] := rfl
  exact (eq_of_toString_append hnil hnil happend).1

/-- What stands behind the first number of a range. -/
theorem toList_renderRun (range : Int × Int) :
    ∃ rest, EndsNumber rest ∧ (renderRun range).toList = (toString range.1).toList ++ rest ∧
      rest = if range.1 = range.2 then [] else '-' :: (toString range.2).toList := by
  refine ⟨_, ?_, ?_, rfl⟩
  · split
    · rfl
    · rfl
  · rw [renderRun]
    split
    · rw [List.append_nil]
    · simp

/-- A range can be read back from its text. -/
theorem renderRun_injective : Function.Injective renderRun := by
  intro range other h
  obtain ⟨rest, hrest, htext, hrange⟩ := toList_renderRun range
  obtain ⟨rest', hrest', htext', hother⟩ := toList_renderRun other
  have hsame : (renderRun range).toList = (renderRun other).toList := congrArg String.toList h
  rw [htext, htext'] at hsame
  obtain ⟨hfirst, rfl⟩ := eq_of_toString_append hrest hrest' hsame
  rw [hrange] at hother
  refine Prod.ext hfirst ?_
  by_cases hone : range.1 = range.2
  · by_cases hone' : other.1 = other.2
    · rw [← hone, ← hone', hfirst]
    · rw [if_pos hone, if_neg hone'] at hother
      cases hother
  · by_cases hone' : other.1 = other.2
    · rw [if_neg hone, if_pos hone'] at hother
      cases hother
    · rw [if_neg hone, if_neg hone', List.cons_eq_cons] at hother
      exact eq_of_toList_toString hother.2

/-! ## The ranges of an analysis -/

theorem pairwise_lt_toList (s : LineSet) : s.toList.Pairwise (· < ·) :=
  s.ascending.imp Int.compare_eq_lt.1

/-- The runs of missing statements of an analysis. -/
def runs (a : Analysis) : List (List Int) := runsFrom a.missing [] a.statements.toList

variable {a : Analysis}

theorem mem_runs_iff : run ∈ a.runs ↔ IsMissingRun a.missing a.statements.toList run :=
  mem_runsFrom_iff nofun

theorem runRanges_eq (a : Analysis) : a.runRanges = a.runs.map ends :=
  missingRuns_eq a.missing [] a.statements.toList

theorem runTexts_eq (a : Analysis) : a.runTexts = a.runs.map runText := by
  rw [runTexts, runRanges_eq, List.map_map]
  apply List.map_congr_left
  intro run hrun
  have hmaximal := mem_runs_iff.1 hrun
  obtain ⟨before, after, hsplit, -, -⟩ := hmaximal.maximal
  have hascending := pairwise_lt_toList a.statements
  rw [hsplit] at hascending
  obtain ⟨hleft, -, -⟩ := List.pairwise_append.1 hascending
  obtain ⟨-, hrunAscending, -⟩ := List.pairwise_append.1 hleft
  exact renderRun_ends hmaximal.ne_nil hrunAscending

section Recorded

variable {reporter : Reporter} {recordedLines : LineSet} {recordedArcs : ArcSet}

/-- The runs of an analysis hold its missing lines, in order. -/
theorem flatten_runs (h : ofRecorded reporter recordedLines recordedArcs = .ok a) :
    a.runs.flatten = a.missing.toList := by
  rw [runs, flatten_runsFrom, List.nil_append]
  apply SortedSet.eq_of_mem_iff (a.statements.ascending.filter _) a.missing.ascending
  intro line
  rw [List.mem_filter, decide_eq_true_iff]
  exact and_iff_right_of_imp (mem_statements_of_mem_missing h)

/-- The statements in the ranges are the missing ones. -/
theorem mem_missing_iff_range (h : ofRecorded reporter recordedLines recordedArcs = .ok a) :
    line ∈ a.missing ↔
      line ∈ a.statements ∧ ∃ range ∈ a.runRanges, range.1 ≤ line ∧ line ≤ range.2 := by
  have hascending := pairwise_lt_toList a.statements
  rw [SortedSet.mem_def, ← flatten_runs h, List.mem_flatten, runRanges_eq]
  refine ⟨fun hline => ?_, fun hline => ?_⟩
  · obtain ⟨run, hrun, hline⟩ := hline
    obtain ⟨hstatement, hbounds⟩ := ((mem_runs_iff.1 hrun).mem_iff hascending).1 hline
    exact ⟨hstatement, ends run, List.mem_map_of_mem hrun, hbounds⟩
  · obtain ⟨hstatement, range, hrange, hbounds⟩ := hline
    obtain ⟨run, hrun, rfl⟩ := List.mem_map.1 hrange
    exact ⟨run, hrun, ((mem_runs_iff.1 hrun).mem_iff hascending).2 ⟨hstatement, hbounds⟩⟩

/-- Of two analyses with the same statements, those with the same ranges miss the same. -/
theorem missing_eq_of_runTexts_eq {other : Analysis} {reporter' : Reporter}
    {recordedLines' : LineSet} {recordedArcs' : ArcSet}
    (h : ofRecorded reporter recordedLines recordedArcs = .ok a)
    (hother : ofRecorded reporter' recordedLines' recordedArcs' = .ok other)
    (hstatements : other.statements = a.statements) (htexts : other.runTexts = a.runTexts) :
    other.missing = a.missing := by
  have hranges : other.runRanges = a.runRanges := renderRun_injective.list_map htexts
  ext line
  rw [mem_missing_iff_range h, mem_missing_iff_range hother, hstatements, hranges]

end Recorded

/-! ## The branches of an analysis -/

theorem mem_ungrouped {groups : SortedMap Int (List Int)} {arc : Arc} :
    arc ∈ ungrouped groups ↔
      ∃ targets, groups.get? arc.source = some targets ∧ arc.target ∈ targets := by
  rw [ungrouped, ungroupedList, List.mem_flatMap]
  refine ⟨fun h => ?_, fun h => ?_⟩
  · obtain ⟨group, hgroup, harc⟩ := h
    obtain ⟨target, htarget, rfl⟩ := List.mem_map.1 harc
    exact ⟨group.2, SortedMap.get?_of_mem hgroup, htarget⟩
  · obtain ⟨targets, hfound, htarget⟩ := h
    exact ⟨(arc.source, targets), SortedMap.mem_toList_iff.2 hfound,
      List.mem_map.2 ⟨arc.target, htarget, rfl⟩⟩

theorem mem_writtenBranches_iff {arc : Arc} :
    arc ∈ a.writtenBranches ↔
      a.hasArcs = true ∧ arc.source ∉ a.missing ∧
        ∃ targets, a.missingBranchArcs.get? arc.source = some targets ∧ arc.target ∈ targets := by
  rw [writtenBranches, ← mem_ungrouped]
  by_cases harcs : a.hasArcs = true
  · rw [if_pos harcs, List.mem_filter, decide_eq_true_iff]
    tauto
  · rw [if_neg harcs]
    simp [harcs]

namespace LooksAtArcs

/-- As many lines are counted as partial as there are lines that written branches start from. -/
theorem size_sources_writtenBranches (ha : a.LooksAtArcs) :
    (SortedSet.ofList (a.writtenBranches.map Arc.source)).size = a.numbers.partialBranches := by
  have hsources : SortedSet.ofList (a.writtenBranches.map Arc.source) =
      a.missingBranches.sources \ a.missing := by
    ext line
    rw [SortedSet.mem_ofList, List.mem_map, SortedSet.mem_sdiff, ArcSet.mem_sources,
      ← mem_partialLines, ha.mem_partialLines_iff]
    refine ⟨fun h => ?_, fun h => ?_⟩
    · obtain ⟨arc, harc, rfl⟩ := h
      exact ⟨arc.target, harc⟩
    · obtain ⟨target, harc⟩ := h
      exact ⟨_, harc, rfl⟩
  rw [hsources, ha.partialBranches_numbers]

end LooksAtArcs

/-- The text of an analysis lists what is missing, each thing once and in order: the
maximal runs of missing statements, by their first and last line, and the missing
branches from lines that are not missing. The ranges hold the missing statements and none
that ran, as many lines start a branch as are counted as partial, and analyses with the
same statements and the same texts of ranges miss the same statements. -/
theorem text_lists_runs_and_branches {reporter : Reporter} {recordedLines : LineSet}
    {recordedArcs : ArcSet} {a : Analysis}
    (h : ofRecorded reporter recordedLines recordedArcs = .ok a) :
    ((∀ run, run ∈ a.runs ↔ IsMissingRun a.missing a.statements.toList run) ∧
      a.runs.flatten = a.missing.toList) ∧
    a.renderMissing = ", ".intercalate
      (a.runs.map runText ++ a.writtenBranches.map fun arc => renderArc arc.source arc.target) ∧
    ((∀ arc, arc ∈ a.writtenBranches ↔ a.hasArcs = true ∧ arc.source ∉ a.missing ∧
        ∃ targets, a.missingBranchArcs.get? arc.source = some targets ∧ arc.target ∈ targets) ∧
      a.writtenBranches.Pairwise fun arc next => compare arc next = .lt) ∧
    ((∀ line, line ∈ a.missing ↔ line ∈ a.statements ∧
        ∃ run ∈ a.runs, (ends run).1 ≤ line ∧ line ≤ (ends run).2) ∧
      ∀ run ∈ a.runs, ∀ line ∈ a.executed, ¬ ((ends run).1 ≤ line ∧ line ≤ (ends run).2)) ∧
    (SortedSet.ofList (a.writtenBranches.map Arc.source)).size = a.numbers.partialBranches ∧
    ∀ reporter' recordedLines' recordedArcs' b,
      ofRecorded reporter' recordedLines' recordedArcs' = .ok b → b.statements = a.statements →
      b.runs.map runText = a.runs.map runText → b.missing = a.missing := by
  have hlooks := looksAtArcs_of_ofRecorded h
  have hmissing : ∀ line, line ∈ a.missing ↔ line ∈ a.statements ∧
      ∃ run ∈ a.runs, (ends run).1 ≤ line ∧ line ≤ (ends run).2 := by
    intro line
    rw [mem_missing_iff_range h, runRanges_eq]
    simp only [List.mem_map, exists_exists_and_eq_and]
  refine ⟨⟨fun run => mem_runs_iff, flatten_runs h⟩, ?_,
    ⟨fun arc => mem_writtenBranches_iff, ?_⟩, ⟨hmissing, ?_⟩,
    hlooks.size_sources_writtenBranches, ?_⟩
  · rw [renderMissing_eq, runTexts_eq, branchTexts]
  · rw [hlooks.writtenBranches_eq]
    exact SortedSet.ascending _
  · intro run hrun line hline hbounds
    obtain ⟨hstatement, hran⟩ := (mem_executed_iff h).1 hline
    exact hran ((hmissing line).2 ⟨hstatement, run, hrun, hbounds⟩)
  · intro reporter' recordedLines' recordedArcs' b hb hstatements htexts
    rw [← runTexts_eq, ← runTexts_eq] at htexts
    exact missing_eq_of_runTexts_eq h hb hstatements htexts

/-! ## A page with gaps -/

namespace Gaps

/-- The reporter of a page. Lines between its statements are not executable, and one
statement has a negative number. -/
def reporter : Reporter where
  host := ⟨∅, []⟩
  filename := ⟨"/s/page"⟩
  lines := .ok (.ofList [-3, 1, 2, 4, 7, 8, 10])
  arcs := .ok (.ofList [⟨1, -1⟩, ⟨1, 2⟩, ⟨2, 4⟩, ⟨2, 7⟩, ⟨8, 4⟩, ⟨8, 10⟩])

/-- The analysis of the page when its lines 1 and 8 ran, and the step to line 10. -/
def analysis : Analysis where
  filename := ⟨"/s/page"⟩
  statements := .ofList [-3, 1, 2, 4, 7, 8, 10]
  excluded := ∅
  executed := .ofList [1, 8]
  missing := .ofList [-3, 2, 4, 7, 10]
  unpredicted := ∅
  hasArcs := true
  possibleArcs := .ofList [⟨1, -1⟩, ⟨1, 2⟩, ⟨2, 4⟩, ⟨2, 7⟩, ⟨8, 4⟩, ⟨8, 10⟩]
  executedArcs := .ofList [⟨8, 10⟩]
  exitCounts := .ofList [(1, 2), (2, 2), (8, 2)]
  noBranch := ∅

/-- The page misses one run of three statements and two of one, and of the branches that
it misses those are written that start from lines 1 and 8. -/
theorem text_of_page :
    ofRecorded reporter (.ofList [1, 8]) (.ofList [⟨8, 10⟩]) = .ok analysis ∧
      analysis.runs = [[-3], [2, 4, 7], [10]] ∧
      IsMissingRun analysis.missing analysis.statements.toList [2, 4, 7] ∧
      analysis.renderMissing = "-3, 2-7, 10, 1->exit, 1->2, 8->4" ∧
      analysis.numbers.partialBranches = 2 := by
  have ha : ofRecorded reporter (.ofList [1, 8]) (.ofList [⟨8, 10⟩]) = .ok analysis := by
    decide +kernel
  have hruns : analysis.runs = [[-3], [2, 4, 7], [10]] := by decide +kernel
  have hbranches : analysis.writtenBranches = [⟨1, -1⟩, ⟨1, 2⟩, ⟨8, 4⟩] := by decide +kernel
  obtain ⟨⟨hmaximal, -⟩, htext, -, -, hcount, -⟩ := text_lists_runs_and_branches ha
  rw [hruns, hbranches] at htext
  rw [hbranches] at hcount
  refine ⟨ha, hruns, ?_, ?_, ?_⟩
  · apply (hmaximal _).1
    rw [hruns]
    decide
  · rw [htext]
    decide +kernel
  · rw [← hcount]
    decide +kernel

end Gaps

end Analysis

end Coverage
