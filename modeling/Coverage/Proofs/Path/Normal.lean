/-
# The lexical normal form

`keptNames` says which names of a path stay without a stack: the steps are read from the
left, and every `..` takes back the nearest name before it that stands, if there is one.
These are the names of the normal form (`lexicalNames_eq_keptNames`), whose text is plain:
no piece of it is empty or made of dots, and no separator ends it.

Paths that differ in separators and inner dots only are `Respelled`, and have one normal
form. Normalizing is idempotent, and what is joined to a path may be joined to its normal
form.
-/
import Coverage.Proofs.Path.Pieces
import Mathlib.Data.List.Induction

namespace Coverage

/-- The name of a step, if it has one. -/
def Component.name? : Component → Option String
  | normal name => some name
  | _ => none

namespace Path

/-! ## The names that are taken back -/

/-- The name of the step at a position. -/
def nameAt? (steps : List Component) (i : Nat) : Option String :=
  steps[i]?.bind Component.name?

/-- The positions of names below `bound` that are not among the `taken` ones. -/
def standing (steps : List Component) (taken : List Nat) (bound : Nat) : List Nat :=
  (List.range bound).filter fun i => (nameAt? steps i).isSome ∧ i ∉ taken

/-- The positions of the names that the first `count` steps take back: each `..` among
them, in its turn, the nearest name before it that still stands. -/
def takenBack (steps : List Component) : Nat → List Nat
  | 0 => []
  | count + 1 =>
    if steps[count]? = some .parent then
      takenBack steps count ++ (standing steps (takenBack steps count) count).getLast?.toList
    else takenBack steps count

/-- The names that no `..` takes back, from the left to the right. -/
def keptNames (steps : List Component) : List String :=
  (standing steps (takenBack steps steps.length) steps.length).filterMap (nameAt? steps)

section Kept

variable {steps : List Component} {taken : List Nat} {count i : Nat}

theorem mem_standing : i ∈ standing steps taken count ↔
    i < count ∧ (nameAt? steps i).isSome ∧ i ∉ taken := by
  rw [standing, List.mem_filter, List.mem_range, decide_eq_true_iff]

theorem nodup_standing : (standing steps taken count).Nodup := List.nodup_range.filter _

theorem lt_of_mem_takenBack (h : i ∈ takenBack steps count) : i < count := by
  induction count with
  | zero => cases h
  | succ count ih =>
    rw [takenBack] at h
    split at h
    · rcases List.mem_append.1 h with h | h
      · exact Nat.lt_succ_of_lt (ih h)
      · have hlast := List.mem_of_getLast? (Option.mem_toList.1 h)
        exact Nat.lt_succ_of_lt (mem_standing.1 hlast).1
    · exact Nat.lt_succ_of_lt (ih h)

theorem standing_succ : standing steps taken (count + 1) = standing steps taken count ++
    if (nameAt? steps count).isSome ∧ count ∉ taken then [count] else [] := by
  rw [standing, List.range_succ, List.filter_append, ← standing, List.filter_singleton,
    Bool.cond_decide]

/-- A name that is read stands. -/
theorem standing_of_normal {name : String} (h : steps[count]? = some (.normal name)) :
    standing steps (takenBack steps (count + 1)) (count + 1) =
      standing steps (takenBack steps count) count ++ [count] := by
  have htaken : takenBack steps (count + 1) = takenBack steps count := by
    rw [takenBack, if_neg]
    rw [h]
    exact fun heq => nomatch heq
  rw [htaken, standing_succ, if_pos]
  refine ⟨by rw [nameAt?, h]; rfl, fun hcount => ?_⟩
  exact Nat.lt_irrefl count (lt_of_mem_takenBack hcount)

/-- A `..` takes the last name that stands. -/
theorem standing_of_parent (h : steps[count]? = some .parent) :
    standing steps (takenBack steps (count + 1)) (count + 1) =
      (standing steps (takenBack steps count) count).dropLast := by
  have hunnamed : ¬ ((nameAt? steps count).isSome ∧ count ∉ takenBack steps (count + 1)) := by
    rw [nameAt?, h]
    exact fun hname => nomatch hname.1
  rw [standing_succ, if_neg hunnamed, List.append_nil, takenBack, if_pos h]
  rcases List.eq_nil_or_concat (standing steps (takenBack steps count) count) with
    hnone | ⟨before, last, hlast⟩
  · rw [hnone, List.getLast?_nil, Option.toList_none, List.append_nil, hnone, List.dropLast_nil]
  · rw [List.concat_eq_append] at hlast
    have hnodup : (before ++ [last]).Nodup := hlast ▸ nodup_standing
    have hfresh : ∀ i ∈ before, i ≠ last := fun i hi =>
      (List.nodup_append.1 hnodup).2.2 i hi last List.mem_cons_self
    have hstill : standing steps (takenBack steps count ++ [last]) count =
        (standing steps (takenBack steps count) count).filter (· ≠ last) := by
      rw [standing, standing, List.filter_filter]
      refine List.filter_congr fun i _ => ?_
      rw [← Bool.decide_and]
      refine decide_eq_decide.2 ?_
      rw [List.mem_append, List.mem_singleton, not_or, @and_comm (i ≠ last), and_assoc]
    rw [hlast, List.getLast?_concat, Option.toList_some, hstill, hlast, List.dropLast_concat,
      List.filter_append, List.filter_eq_self.2 fun i hi => decide_eq_true (hfresh i hi),
      List.filter_cons_of_neg (by simp), List.filter_nil, List.append_nil]

/-- A step that is neither a name nor a `..` changes nothing. -/
theorem standing_of_other (hname : nameAt? steps count = none)
    (hparent : steps[count]? ≠ some .parent) :
    standing steps (takenBack steps (count + 1)) (count + 1) =
      standing steps (takenBack steps count) count := by
  rw [takenBack, if_neg hparent, standing_succ, hname, if_neg, List.append_nil]
  exact fun h => nomatch h.1

/-- Every standing position has its name. -/
theorem filterMap_dropLast_standing :
    (standing steps taken count).dropLast.filterMap (nameAt? steps) =
      ((standing steps taken count).filterMap (nameAt? steps)).dropLast := by
  rcases List.eq_nil_or_concat (standing steps taken count) with hnone | ⟨before, last, hlast⟩
  · rw [hnone, List.dropLast_nil, List.filterMap_nil, List.dropLast_nil]
  · rw [List.concat_eq_append] at hlast
    have hmem : last ∈ standing steps taken count := by
      rw [hlast]
      exact List.mem_append_right _ List.mem_cons_self
    obtain ⟨name, hname⟩ := Option.isSome_iff_exists.1 (mem_standing.1 hmem).2.1
    rw [hlast, List.dropLast_concat, List.filterMap_append, List.filterMap_cons_some hname,
      List.filterMap_nil, List.dropLast_concat]

end Kept

/-! ## The names of the normal form -/

theorem lexicalNames_concat_normal (steps : List Component) (name : String) :
    lexicalNames (steps ++ [.normal name]) = lexicalNames steps ++ [name] := by
  rw [lexicalNames, List.foldl_concat, List.reverse_cons, ← lexicalNames]

theorem lexicalNames_concat_parent (steps : List Component) :
    lexicalNames (steps ++ [.parent]) = (lexicalNames steps).dropLast := by
  rw [lexicalNames, List.foldl_concat, List.drop_one, lexicalNames, List.dropLast_reverse]

theorem lexicalNames_concat_other (steps : List Component) {step : Component}
    (hname : step.name? = none) (hparent : step ≠ .parent) :
    lexicalNames (steps ++ [step]) = lexicalNames steps := by
  rw [lexicalNames, List.foldl_concat]
  cases step with
  | root | current => rfl
  | parent => exact absurd rfl hparent
  | normal name => cases hname

/-- The names that the stack holds are those that nobody takes back. -/
theorem lexicalNames_eq_keptNames (steps : List Component) :
    lexicalNames steps = keptNames steps := by
  -- Induction on the steps read so far; both sides change alike at each of them.
  have hread : ∀ count ≤ steps.length, lexicalNames (steps.take count) =
      (standing steps (takenBack steps count) count).filterMap (nameAt? steps) := by
    intro count hcount
    induction count with
    | zero => rfl
    | succ count ih =>
      obtain ⟨step, hstep⟩ : ∃ step, steps[count]? = some step :=
        ⟨_, List.getElem?_eq_getElem hcount⟩
      rw [List.take_add_one, hstep, Option.toList_some]
      have ih := ih (Nat.le_of_succ_le hcount)
      by_cases hparent : step = .parent
      · subst hparent
        rw [lexicalNames_concat_parent, ih, standing_of_parent hstep,
          filterMap_dropLast_standing]
      · cases hname : step.name? with
        | some name =>
          obtain rfl : step = .normal name := by
            cases step with
            | normal other => rw [Option.some.inj hname]
            | root | current | parent => cases hname
          have hat : nameAt? steps count = some name := by rw [nameAt?, hstep]; rfl
          rw [lexicalNames_concat_normal, ih, standing_of_normal hstep, List.filterMap_append,
            List.filterMap_cons_some hat, List.filterMap_nil]
        | none =>
          have hat : nameAt? steps count = none := by rw [nameAt?, hstep]; exact hname
          have hother : steps[count]? ≠ some .parent := fun h =>
            hparent (Option.some.inj (hstep.symm.trans h))
          rw [lexicalNames_concat_other _ hname hparent, ih, standing_of_other hat hother]
  rw [keptNames, ← hread steps.length (Nat.le_refl _), List.take_length]

/-- What follows acts on the names that are left. -/
theorem lexicalNames_append_congr {first second : List Component} (rest : List Component)
    (h : lexicalNames first = lexicalNames second) :
    lexicalNames (first ++ rest) = lexicalNames (second ++ rest) := by
  rw [lexicalNames, lexicalNames, List.reverse_inj] at *
  rw [List.foldl_append, List.foldl_append, h]

theorem lexicalNames_map_normal (names : List String) :
    lexicalNames (names.map Component.normal) = names := by
  induction names using List.reverseRecOn with
  | nil => rfl
  | append_singleton names name ih =>
    rw [List.map_append, List.map_singleton, lexicalNames_concat_normal, ih]

/-- The start of a text leaves no name. -/
theorem lexicalNames_components (p : Path) :
    lexicalNames p.components = lexicalNames (named p.pieces) := by
  rw [components, ← named]
  refine (lexicalNames_append_congr _ ?_).trans (by rw [List.nil_append])
  rw [head]
  split
  · rfl
  · split <;> rfl

theorem mem_of_mem_lexicalNames {steps : List Component} {name : String}
    (h : name ∈ lexicalNames steps) : .normal name ∈ steps := by
  rw [lexicalNames_eq_keptNames, keptNames, List.mem_filterMap] at h
  obtain ⟨i, -, hname⟩ := h
  obtain ⟨step, hstep, hname⟩ := Option.bind_eq_some_iff.1 hname
  cases step with
  | normal other =>
    rw [← Option.some.inj hname]
    exact List.mem_of_getElem? hstep
  | root | current | parent => cases hname

theorem isFileName_of_mem_lexicalNames {p : Path} :
    ∀ name ∈ lexicalNames p.components, IsFileName name := fun _ h =>
  isFileName_of_mem_components (mem_of_mem_lexicalNames h)

/-! ## Plain texts -/

/-- An absolute text without an empty piece, a dot or two dots, and without a separator at
its end. The root is plain as it is. -/
structure IsPlain (p : Path) : Prop where
  isAbsolute : p.isAbsolute = true
  pieces : p.text ≠ "/" → ∀ piece ∈ p.pieces.tail, piece ≠ [] ∧ piece ≠ ['.'] ∧ piece ≠ ['.', '.']
  no_trailing : p.text ≠ "/" → p.text.toList.getLast? ≠ some '/'

theorem isPlain_ofNames {names : List String} (h : ∀ name ∈ names, IsFileName name) :
    IsPlain (ofNames names) := by
  have hpieces : (ofNames names).text ≠ "/" →
      (ofNames names).pieces = [] :: names.map String.toList := by
    intro hroot
    have hsome : names ≠ [] := by
      rintro rfl
      exact hroot rfl
    rw [pieces_ofNames h, if_neg hsome]
  have hplain : (ofNames names).text ≠ "/" → ∀ piece ∈ (ofNames names).pieces.tail,
      piece ≠ [] ∧ piece ≠ ['.'] ∧ piece ≠ ['.', '.'] := by
    intro hroot piece hpiece
    rw [hpieces hroot, List.tail_cons] at hpiece
    obtain ⟨name, hname, rfl⟩ := List.mem_map.1 hpiece
    refine ⟨fun heq => (h name hname).ne_empty (String.toList_inj.1 heq),
      fun heq => (h name hname).ne_current (String.toList_inj.1 heq),
      fun heq => (h name hname).ne_parent (String.toList_inj.1 heq)⟩
  refine ⟨isAbsolute_ofNames names, hplain, fun hroot hlast => ?_⟩
  -- A separator at the end would leave an empty last piece.
  obtain ⟨before, hbefore⟩ := List.getLast?_eq_some_iff.1 hlast
  have hcut := pieces_of_toList_eq hbefore
  rw [List.splitOn_nil] at hcut
  have hmem : [] ∈ (ofNames names).pieces.tail := by
    rw [hcut, List.tail_append_of_ne_nil (List.splitOn_ne_nil _ _)]
    exact List.mem_append_right _ List.mem_cons_self
  exact (hplain hroot [] hmem).1 rfl

theorem text_ofNames_ne {names : List String} (h : ∀ name ∈ names, IsFileName name)
    (hsome : names ≠ []) : (ofNames names).text ≠ "/" := by
  intro hroot
  have hcomponents : (ofNames names).components = (ofNames []).components :=
    congrArg (fun text => (⟨text⟩ : Path).components) hroot
  rw [components_ofNames h, components_ofNames (List.forall_mem_nil _)] at hcomponents
  exact hsome (List.map_eq_nil_iff.1 (List.cons.inj hcomponents).2)

/-- What is joined to a path of names comes after the names. -/
theorem pieces_join_ofNames {names : List String} (h : ∀ name ∈ names, IsFileName name) {q : Path}
    (hq : q.isAbsolute = false) :
    ((ofNames names).join q).pieces = [] :: (names.map String.toList ++ q.pieces) := by
  rw [join, if_neg (Bool.eq_false_iff.1 hq)]
  rcases eq_or_ne names [] with rfl | hsome
  · rw [if_pos (by rfl), pieces, String.toList_append]
    exact splitOn_separator_cons q.text.toList
  · have hlast : (ofNames names).text.toList.getLast?.all (· == '/') = false := by
      have hplain := (isPlain_ofNames h).no_trailing (text_ofNames_ne h hsome)
      rw [toList_ofNames] at hplain ⊢
      rw [List.getLast?_cons] at hplain ⊢
      rw [Option.all_some, beq_eq_false_iff_ne]
      exact fun heq => hplain (congrArg some heq)
    have hjoined : (⟨(ofNames names).text ++ "/" ++ q.text⟩ : Path).text.toList =
        (ofNames names).text.toList ++ '/' :: q.text.toList := toList_append_separator _ _
    rw [hlast, if_neg Bool.false_ne_true, pieces_of_toList_eq hjoined, ← pieces, pieces_ofNames h,
      if_neg hsome, List.cons_append, pieces]

/-! ## Spellings of one path -/

/-- Texts that differ in repeated separators, separators at the end, and inner dots only. -/
inductive Respelled : List Char → List Char → Prop
  | refl (text : List Char) : Respelled text text
  | symm {text other : List Char} : Respelled text other → Respelled other text
  | trans {text other third : List Char} :
      Respelled text other → Respelled other third → Respelled text third
  | separators (before after : List Char) :
      Respelled (before ++ '/' :: '/' :: after) (before ++ '/' :: after)
  | trailing {before : List Char} : before ≠ [] → Respelled (before ++ ['/']) before
  | dot (before after : List Char) :
      Respelled (before ++ '/' :: '.' :: '/' :: after) (before ++ '/' :: after)
  | lastDot (before : List Char) : Respelled (before ++ ['/', '.']) (before ++ ['/'])

/-- What a text means, but for a dot that it starts with. -/
theorem Respelled.named_eq {text other : List Char} (h : Respelled text other) :
    (text.head? = some '/' ↔ other.head? = some '/') ∧
      named (text.splitOn '/') = named (other.splitOn '/') := by
  have hhead : ∀ before after after' : List Char,
      (before ++ '/' :: after).head? = some '/' ↔ (before ++ '/' :: after').head? = some '/' := by
    rintro (_ | ⟨c, before⟩) after after' <;> exact Iff.rfl
  induction h with
  | refl => exact ⟨Iff.rfl, rfl⟩
  | symm _ ih => exact ⟨ih.1.symm, ih.2.symm⟩
  | trans _ _ ih₁ ih₂ => exact ⟨ih₁.1.trans ih₂.1, ih₁.2.trans ih₂.2⟩
  | separators before after =>
    refine ⟨hhead .., ?_⟩
    rw [List.splitOn_append_cons_self, List.splitOn_append_cons_self, splitOn_separator_cons,
      named_append, named_append, named_nil_cons]
  | @trailing before hbefore =>
    obtain ⟨c, before, rfl⟩ := List.exists_cons_of_ne_nil hbefore
    refine ⟨Iff.rfl, ?_⟩
    rw [List.splitOn_append_cons_self, named_append, List.splitOn_nil, named_nil_cons, named_nil,
      List.append_nil]
  | dot before after =>
    refine ⟨hhead .., ?_⟩
    have hdot : ('.' :: '/' :: after).splitOn '/' = ['.'] :: after.splitOn '/' :=
      List.splitOn_append_cons_self ['.'] after
    rw [List.splitOn_append_cons_self, List.splitOn_append_cons_self, hdot, named_append,
      named_append]
    rfl
  | lastDot before =>
    refine ⟨hhead .., ?_⟩
    rw [List.splitOn_append_cons_self, List.splitOn_append_cons_self, named_append, named_append]
    rfl

/-! ## Normal forms -/

variable {p q : Path}

theorem normal_of_isAbsolute (h : p.isAbsolute = true) :
    p.normal = ofNames (lexicalNames p.components) := by
  rw [normal, if_pos h]

theorem normal_of_isRelative (h : p.isAbsolute = false) :
    p.normal = ⟨"/".intercalate (lexicalNames p.components)⟩ := by
  rw [normal, if_neg (Bool.eq_false_iff.1 h)]

theorem normal_congr (habsolute : p.isAbsolute = q.isAbsolute)
    (hnames : lexicalNames p.components = lexicalNames q.components) : p.normal = q.normal := by
  rw [normal, normal, habsolute, hnames]

/-- The pieces of a normal form are the names that are left. -/
theorem named_pieces_normal (p : Path) :
    named p.normal.pieces = (lexicalNames p.components).map Component.normal := by
  have hfile := isFileName_of_mem_lexicalNames (p := p)
  cases habsolute : p.isAbsolute with
  | true =>
    rw [normal_of_isAbsolute habsolute, named_pieces_ofNames hfile]
  | false =>
    rw [normal_of_isRelative habsolute, pieces, String.toList_intercalate]
    rcases eq_or_ne (lexicalNames p.components) [] with hnone | hsome
    · rw [hnone]
      rfl
    · exact (congrArg named (splitOn_intercalate_toList hfile hsome)).trans
        (named_map_toList hfile)

theorem isAbsolute_normal (p : Path) : p.normal.isAbsolute = p.isAbsolute := by
  cases habsolute : p.isAbsolute with
  | true =>
    rw [normal_of_isAbsolute habsolute]
    exact isAbsolute_ofNames _
  | false =>
    rw [Bool.eq_false_iff]
    intro hnormal
    obtain ⟨rest, hrest⟩ := isAbsolute_iff.1 hnormal
    rw [normal_of_isRelative habsolute, String.toList_intercalate] at hrest
    have hfile := isFileName_of_mem_lexicalNames (p := p)
    rcases eq_or_ne (lexicalNames p.components) [] with hnone | hsome
    · rw [hnone] at hrest
      cases hrest
    · -- A separator at the start would be left of an empty name.
      have hcut := splitOn_intercalate_toList hfile hsome
      have hempty : [] ∈ (lexicalNames p.components).map String.toList := by
        rw [← hcut, ← show "/".toList = ['/'] from rfl, hrest, splitOn_separator_cons]
        exact List.mem_cons_self
      obtain ⟨name, hname, hnil⟩ := List.mem_map.1 hempty
      exact (hfile name hname).ne_empty (String.toList_inj.1 hnil)

theorem lexicalNames_normal (p : Path) :
    lexicalNames p.normal.components = lexicalNames p.components := by
  rw [lexicalNames_components, named_pieces_normal, lexicalNames_map_normal]

/-- A normal form is its own normal form. -/
theorem normal_normal (p : Path) : p.normal.normal = p.normal :=
  normal_congr (isAbsolute_normal p) (lexicalNames_normal p)

theorem isPlain_normal (h : p.isAbsolute = true) : p.normal.IsPlain := by
  rw [normal_of_isAbsolute h]
  exact isPlain_ofNames isFileName_of_mem_lexicalNames

theorem normal_ofNames {names : List String} (h : ∀ name ∈ names, IsFileName name) :
    (ofNames names).normal = ofNames names := by
  rw [normal_of_isAbsolute (isAbsolute_ofNames names), lexicalNames_components,
    named_pieces_ofNames h, lexicalNames_map_normal]

theorem normal_eq_of_respelled (h : Respelled p.text.toList q.text.toList) :
    p.normal = q.normal := by
  obtain ⟨hhead, hnamed⟩ := h.named_eq
  apply normal_congr
  · rw [isAbsolute, isAbsolute, Bool.eq_iff_iff, beq_iff_eq, beq_iff_eq]
    exact hhead
  · rw [lexicalNames_components, lexicalNames_components, pieces, pieces, hnamed]

/-- What is joined to an absolute path may be joined to its normal form. -/
theorem normal_join (q : Path) (h : p.isAbsolute = true) :
    (p.join q).normal = (p.normal.join q).normal := by
  have hnormal : p.normal.isAbsolute = true := (isAbsolute_normal p).trans h
  cases hq : q.isAbsolute with
  | true => rw [join_of_isAbsolute p hq, join_of_isAbsolute _ hq]
  | false =>
    apply normal_congr
    · rw [isAbsolute_join q h, isAbsolute_join q hnormal]
    · rw [lexicalNames_components, lexicalNames_components, named_pieces_join p hq,
        named_pieces_join _ hq]
      apply lexicalNames_append_congr
      rw [← lexicalNames_components, ← lexicalNames_components, lexicalNames_normal]

end Path

end Coverage
