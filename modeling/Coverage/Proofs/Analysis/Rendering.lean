/-
# The short text of what is missing

The text lists runs of missing statements and then missing branches. The two kinds
of parts are told apart by one character: an arc is written with an arrow, and a
run is not.
-/
import Coverage.Proofs.Analysis.Branches

namespace Coverage

namespace Analysis

/-! ## Characters of the parts -/

/-- A number is written without an arrow. -/
theorem arrow_notMem_toString (n : Int) : '>' ∉ (toString n).toList := by
  have hnat : ∀ m : Nat, '>' ∉ m.repr.toList := by
    intro m h
    rw [Nat.toList_repr] at h
    have hdigit := Nat.isDigit_of_mem_toDigits (by decide) (by decide) h
    cases hdigit
  rw [Int.toString_eq_repr, Int.repr_eq_if]
  split
  · exact hnat _
  · intro h
    rw [String.toList_append, List.mem_append] at h
    rcases h with hsign | hdigits
    · simp at hsign
    · exact hnat _ hdigits

theorem arrow_notMem_renderRun (run : Int × Int) : '>' ∉ (renderRun run).toList := by
  rw [renderRun]
  split
  · exact arrow_notMem_toString run.1
  · intro h
    rw [String.toList_append, String.toList_append, List.mem_append, List.mem_append] at h
    rcases h with (hfirst | hdash) | hlast
    · exact arrow_notMem_toString run.1 hfirst
    · simp at hdash
    · exact arrow_notMem_toString run.2 hlast

theorem arrow_mem_renderArc (source target : Int) : '>' ∈ (renderArc source target).toList := by
  rw [renderArc, String.toList_append, String.toList_append]
  apply List.mem_append_left
  apply List.mem_append_right
  simp

/-- A character that does not separate parts is in a joined text when it is in a part. -/
theorem mem_intercalate {separator : String} {parts : List String} {c : Char}
    (hseparator : c ∉ separator.toList) :
    c ∈ (separator.intercalate parts).toList ↔ ∃ part ∈ parts, c ∈ part.toList := by
  induction parts with
  | nil => simp
  | cons part parts ih =>
    cases parts with
    | nil => simp
    | cons next parts =>
      rw [String.intercalate_cons_cons, String.toList_append, String.toList_append,
        List.mem_append, List.mem_append, ih, or_iff_left hseparator]
      simp only [List.mem_cons, or_and_right, exists_or, exists_eq_left]

/-! ## What the text shows -/

variable {a : Analysis}

/-- Without missing lines there are no runs. -/
theorem missingRuns_eq_nil {missing : LineSet} {lines : List Int}
    (h : ∀ line ∈ lines, line ∉ missing) : missingRuns missing none lines = [] := by
  induction lines with
  | nil => rfl
  | cons line lines ih =>
    rw [missingRuns, if_neg (h line List.mem_cons_self)]
    exact ih fun other hother => h other (List.mem_cons_of_mem _ hother)

/-- A missing branch is written when its line ran. -/
theorem mem_partialTexts {text : String} :
    text ∈ a.partialTexts ↔
      ∃ arc ∈ a.missingBranches, arc.source ∉ a.missing ∧
        text = renderArc arc.source arc.target := by
  rw [partialTexts, List.mem_flatMap]
  constructor
  · intro h
    obtain ⟨group, hgroup, htext⟩ := h
    obtain ⟨hmem, hran⟩ := List.mem_filter.1 hgroup
    obtain ⟨target, htarget, rfl⟩ := List.mem_map.1 htext
    have harc : (⟨group.1, target⟩ : Arc) ∈ a.missingBranches :=
      mem_grouped.1 ⟨group, hmem, rfl, htarget⟩
    exact ⟨_, harc, of_decide_eq_true hran, rfl⟩
  · intro h
    obtain ⟨⟨source, target⟩, harc, hran, rfl⟩ := h
    obtain ⟨group, hgroup, rfl, htarget⟩ := mem_grouped.2 harc
    refine ⟨group, List.mem_filter.2 ⟨hgroup, decide_eq_true hran⟩, ?_⟩
    exact List.mem_map_of_mem htarget

/-- The text of the runs of missing statements alone. -/
def renderRuns (a : Analysis) : String :=
  ", ".intercalate ((missingRuns a.missing none a.statements.toList).map renderRun)

theorem arrow_notMem_separator : '>' ∉ ", ".toList := by
  simp

theorem arrow_notMem_renderRuns : '>' ∉ a.renderRuns.toList := by
  rw [renderRuns, mem_intercalate arrow_notMem_separator]
  intro h
  obtain ⟨part, hpart, harrow⟩ := h
  obtain ⟨run, -, rfl⟩ := List.mem_map.1 hpart
  exact arrow_notMem_renderRun run harrow

theorem renderRuns_of_missing_eq_empty (h : a.missing = ∅) : a.renderRuns = "" := by
  have hruns : missingRuns a.missing none a.statements.toList = [] := by
    apply missingRuns_eq_nil
    intro line _ hline
    rw [h] at hline
    exact SortedSet.not_mem_empty line hline
  rw [renderRuns, hruns]
  rfl

/-- The text has an arrow exactly when a line that ran misses a branch. -/
theorem arrow_mem_renderMissing (ha : a.LooksAtArcs) :
    '>' ∈ a.renderMissing.toList ↔ ∃ arc ∈ a.missingBranches, arc.source ∉ a.missing := by
  rw [renderMissing, mem_intercalate arrow_notMem_separator]
  constructor
  · intro h
    obtain ⟨part, hpart, harrow⟩ := h
    rcases List.mem_append.1 hpart with hrun | htext
    · obtain ⟨run, -, rfl⟩ := List.mem_map.1 hrun
      exact absurd harrow (arrow_notMem_renderRun run)
    · split at htext
      · obtain ⟨arc, harc, hran, -⟩ := mem_partialTexts.1 htext
        exact ⟨arc, harc, hran⟩
      · cases htext
  · intro h
    obtain ⟨arc, harc, hran⟩ := h
    have hlooks : a.hasArcs = true := Decidable.byContradiction fun hnot =>
      ha.notMem_missingBranches hnot harc
    refine ⟨renderArc arc.source arc.target, List.mem_append_right _ ?_, arrow_mem_renderArc _ _⟩
    rw [if_pos hlooks]
    exact mem_partialTexts.2 ⟨arc, harc, hran, rfl⟩

/-- The text shows nothing but runs exactly when no line that ran misses a branch. -/
theorem renderMissing_eq_renderRuns_iff (ha : a.LooksAtArcs) :
    a.renderMissing = a.renderRuns ↔ ∀ arc ∈ a.missingBranches, arc.source ∈ a.missing := by
  constructor
  · intro h arc harc
    apply Decidable.byContradiction
    intro hran
    have harrow : '>' ∈ a.renderMissing.toList := (arrow_mem_renderMissing ha).2 ⟨arc, harc, hran⟩
    rw [h] at harrow
    exact arrow_notMem_renderRuns harrow
  · intro h
    have hnone : a.partialTexts = [] := by
      rw [List.eq_nil_iff_forall_not_mem]
      intro text htext
      obtain ⟨arc, harc, hran, -⟩ := mem_partialTexts.1 htext
      exact hran (h arc harc)
    rw [renderMissing, hnone, ite_self, List.append_nil, renderRuns]

/-- When every statement ran, the text is empty exactly when every branch ran. -/
theorem renderMissing_eq_empty_iff (ha : a.LooksAtArcs) (hmissing : a.missing = ∅) :
    a.renderMissing = "" ↔ ∀ arc, arc ∉ a.missingBranches := by
  rw [← renderRuns_of_missing_eq_empty hmissing, renderMissing_eq_renderRuns_iff ha, hmissing]
  exact forall_congr' fun arc => imp_congr_right fun _ =>
    iff_false_intro (SortedSet.not_mem_empty arc.source)

end Analysis

end Coverage
