/-
# Recordings in another order

What data shows of a file are the lines, arcs and labels that some recording for it
brought, so it depends on which recordings were taken and not on their order or number.
Two things are settled by the first recording for a file: the plug-in that is credited
with it, and the spelling under which it is listed.

A recording that was taken before changes nothing at all: its file and its context are
there, and hold what it brings.
-/
import Coverage.Proofs.Activation.Listing
import Coverage.Proofs.Data.Recordings

namespace Coverage

open Recorder

namespace SortedSet

variable {α : Type} [Ord α] [Std.TransOrd α] [Std.LawfulEqOrd α] {s t : SortedSet α} {a : α}

theorem union_eq_left (h : ∀ a ∈ t, a ∈ s) : s ∪ t = s := by
  ext a
  rw [mem_union]
  exact or_iff_left_of_imp (h a)

theorem insert_eq_self (h : a ∈ s) : Insert.insert a s = s := by
  ext b
  rw [mem_insert]
  exact or_iff_right_of_imp fun hb => hb ▸ h

end SortedSet

/-- Two names are of one file when they have the same components. -/
theorem Recorder.sameSource_iff_components {p q : Path} :
    sameSource p q = true ↔ p.components = q.components := by
  rw [sameSource_iff]
  change compare p.components q.components = .eq ↔ _
  exact ⟨Std.LawfulEqOrd.eq_of_compare, fun h => h ▸ Std.ReflCmp.compare_self⟩

namespace CoverageData

/-- The name under which a file is listed, as it is spelled there. -/
def spelling? (data : CoverageData) (path : Path) : Option Path :=
  data.measuredFiles.find? (sameSource · path)

/-- The data that recordings come to, taken in order. -/
def ofRecordings (recordings : List Recording) : CoverageData :=
  (∅ : CoverageData).addAll recordings

section Views

variable {data other : CoverageData} {path : Path} {label : String} {r : Recording}
  {recordings : List Recording}

/-- What was recorded of a file in a context is known from its views. -/
theorem measured?_eq_of_views (hlists : data.Lists path label ↔ other.Lists path label)
    (hlines : data.linesIn path label = other.linesIn path label)
    (harcs : data.arcsIn path label = other.arcsIn path label) :
    data.measured? path label = other.measured? path label := by
  unfold Lists at hlists
  unfold linesIn at hlines
  unfold arcsIn at harcs
  cases hdata : data.measured? path label with
  | none =>
    rw [hdata] at hlists
    exact (Option.not_isSome_iff_eq_none.1 (mt hlists.2 Bool.false_ne_true)).symm
  | some part =>
    rw [hdata] at hlists hlines harcs
    obtain ⟨otherPart, hother⟩ := Option.isSome_iff_exists.1 (hlists.1 rfl)
    rw [hother] at hlines harcs ⊢
    cases part
    cases otherPart
    exact congrArg some ((Measured.mk.injEq ..).mpr ⟨hlines, harcs⟩)

/-! ## What recordings come to -/

theorem lists_add :
    (data.add r).Lists path label ↔
      data.Lists path label ∨ sameSource r.source path ∧ label = r.context := by
  rw [add]
  cases r.coordinates with
  | lines lines => exact lists_record
  | arc arc => exact lists_record

theorem lists_addAll (data : CoverageData) :
    (data.addAll recordings).Lists path label ↔
      data.Lists path label ∨
        ∃ r ∈ recordings, sameSource r.source path ∧ label = r.context := by
  induction recordings generalizing data with
  | nil => simp [addAll]
  | cons r recordings ih =>
    apply (ih (data.add r)).trans
    rw [lists_add, or_assoc]
    simp

theorem lists_ofRecordings :
    (ofRecordings recordings).Lists path label ↔
      ∃ r ∈ recordings, sameSource r.source path ∧ label = r.context :=
  (lists_addAll ∅).trans (or_iff_right Bool.false_ne_true)

theorem mem_linesIn_ofRecordings {line : Int} :
    line ∈ (ofRecordings recordings).linesIn path label ↔
      ∃ r ∈ recordings, sameSource r.source path ∧ label = r.context ∧ line ∈ r.lines := by
  rw [ofRecordings, mem_linesIn_addAll, linesIn_empty]
  exact or_iff_right (SortedSet.not_mem_empty line)

theorem mem_arcsIn_ofRecordings {arc : Arc} :
    arc ∈ (ofRecordings recordings).arcsIn path label ↔
      ∃ r ∈ recordings, sameSource r.source path ∧ label = r.context ∧ r.arc? = some arc := by
  rw [ofRecordings, mem_arcsIn_addAll, arcsIn_empty]
  exact or_iff_right (SortedSet.not_mem_empty arc)

/-- The lines of a file are those that recordings for it brought, in any context. -/
theorem mem_lines_ofRecordings {line : Int} :
    line ∈ (ofRecordings recordings).lines path ↔
      ∃ r ∈ recordings, sameSource r.source path ∧ line ∈ r.lines := by
  simp only [mem_lines_iff, mem_linesIn_ofRecordings]
  constructor
  · rintro ⟨_, r, hr, hsame, -, hline⟩
    exact ⟨r, hr, hsame, hline⟩
  · rintro ⟨r, hr, hsame, hline⟩
    exact ⟨r.context, r, hr, hsame, rfl, hline⟩

/-- The arcs of a file are those that recordings for it brought, in any context. -/
theorem mem_arcs_ofRecordings {arc : Arc} :
    arc ∈ (ofRecordings recordings).arcs path ↔
      ∃ r ∈ recordings, sameSource r.source path ∧ r.arc? = some arc := by
  simp only [mem_arcs_iff, mem_arcsIn_ofRecordings]
  constructor
  · rintro ⟨_, r, hr, hsame, -, harc⟩
    exact ⟨r, hr, hsame, harc⟩
  · rintro ⟨r, hr, hsame, harc⟩
    exact ⟨r.context, r, hr, hsame, rfl, harc⟩

theorem tracer?_ofRecordings :
    (ofRecordings recordings).tracer? path =
      (recordings.find? fun r => sameSource r.source path).map (·.plugin) :=
  (tracer?_addAll ..).trans Option.none_or

theorem spelling?_add (data : CoverageData) (r : Recording) (path : Path) :
    (data.add r).spelling? path =
      (data.spelling? path).or (if sameSource r.source path then some r.source else none) := by
  rw [add]
  cases r.coordinates with
  | lines lines => exact SortedMap.find?_keys_alter ..
  | arc arc => exact SortedMap.find?_keys_alter ..

/-- A file is listed as the first recording for it spells its name. -/
theorem spelling?_ofRecordings :
    (ofRecordings recordings).spelling? path =
      (recordings.find? fun r => sameSource r.source path).map (·.source) :=
  (first_addAll ∅ recordings (spelling? · path) fun data r =>
    data.spelling?_add r path).trans Option.none_or

/-! ## Files and labels in order -/

theorem ascending_measuredFiles (data : CoverageData) :
    (data.measuredFiles.map Path.components).Pairwise fun a b => compare a b = .lt :=
  (data.files.ascending.map Prod.fst fun _ _ h => h).map Path.components fun _ _ h => h

theorem ascending_contexts (data : CoverageData) (path : Path) :
    (data.contexts path).Pairwise fun a b => compare a b = .lt := by
  rw [contexts]
  cases data.file? path with
  | none => exact .nil
  | some file => exact file.contexts.ascending.map _ fun _ _ h => h

theorem isSome_spelling?_iff :
    (data.spelling? path).isSome ↔
      ∃ key ∈ data.measuredFiles, key.components = path.components := by
  rw [spelling?, List.find?_isSome]
  simp only [sameSource_iff_components]

/-- The files with recorded data are those that some recording is for. -/
theorem mem_files_ofRecordings {steps : List Component} :
    steps ∈ (ofRecordings recordings).measuredFiles.map Path.components ↔
      ∃ r ∈ recordings, r.source.components = steps := by
  have hfirst (path : Path) : ((ofRecordings recordings).spelling? path).isSome ↔
      ∃ r ∈ recordings, r.source.components = path.components := by
    rw [spelling?_ofRecordings, Option.isSome_map, List.find?_isSome]
    simp only [sameSource_iff_components]
  rw [List.mem_map]
  constructor
  · rintro ⟨key, hkey, rfl⟩
    exact (hfirst key).1 (isSome_spelling?_iff.2 ⟨key, hkey, rfl⟩)
  · rintro ⟨r, hr, rfl⟩
    exact isSome_spelling?_iff.1 ((hfirst r.source).2 ⟨r, hr, rfl⟩)

end Views

/-! ## Another order -/

/-- Data that shows the same of every file, whoever is credited with it and however its name
is spelled. -/
structure Agrees (data other : CoverageData) : Prop where
  /-- The same files are listed in one order. -/
  files : data.measuredFiles.map Path.components = other.measuredFiles.map Path.components
  lines : ∀ path, data.lines path = other.lines path
  arcs : ∀ path, data.arcs path = other.arcs path
  contexts : ∀ path, data.contexts path = other.contexts path
  /-- What was recorded in each context is the same. -/
  measured? : ∀ path label, data.measured? path label = other.measured? path label

/-- Data depends on which recordings were taken, but for credit and spelling. -/
theorem agrees_of_mem_iff {first second : List Recording} (h : ∀ r, r ∈ first ↔ r ∈ second) :
    (ofRecordings first).Agrees (ofRecordings second) where
  files := by
    apply SortedSet.eq_of_mem_iff (ascending_measuredFiles _) (ascending_measuredFiles _)
    intro steps
    simp only [mem_files_ofRecordings, h]
  lines path := by
    ext line
    simp only [mem_lines_ofRecordings, h]
  arcs path := by
    ext arc
    simp only [mem_arcs_ofRecordings, h]
  contexts path := by
    apply SortedSet.eq_of_mem_iff (ascending_contexts _ path) (ascending_contexts _ path)
    intro label
    simp only [mem_contexts_iff, lists_ofRecordings, h]
  measured? path label := by
    apply measured?_eq_of_views
    · simp only [lists_ofRecordings, h]
    · ext line
      simp only [mem_linesIn_ofRecordings, h]
    · ext arc
      simp only [mem_arcsIn_ofRecordings, h]

/-! ## A recording once more -/

/-- A change that leaves a part as it is changes nothing. -/
theorem record_eq_self {data : CoverageData} {source : Path} {plugin context : String}
    {change : Measured → Measured} {part : Measured}
    (hpart : data.measured? source context = some part) (hchange : change part = part) :
    data.record source plugin context change = data := by
  obtain ⟨file, hfile, hcontext⟩ := Option.bind_eq_some_iff.1 hpart
  have hcontexts : (file.contexts.alter context fun part => change (part.getD ∅)) =
      file.contexts := SortedMap.alter_eq_self hcontext hchange
  rw [record]
  congr 1
  apply SortedMap.alter_eq_self hfile
  rw [Option.getD_some]
  dsimp only
  rw [hcontexts]

/-- A recording that was taken before changes nothing. -/
theorem add_eq_self {recordings : List Recording} {r : Recording} (h : r ∈ recordings) :
    (ofRecordings recordings).add r = ofRecordings recordings := by
  have hlists : (ofRecordings recordings).Lists r.source r.context :=
    lists_ofRecordings.2 ⟨r, h, sameSource_self _, rfl⟩
  obtain ⟨part, hpart⟩ := Option.isSome_iff_exists.1 hlists
  have hlines : ∀ line ∈ r.lines, line ∈ part.lines := by
    intro line hline
    have hmem := mem_linesIn_ofRecordings.2 ⟨r, h, sameSource_self _, rfl, hline⟩
    rwa [linesIn, hpart] at hmem
  have harc : ∀ arc, r.arc? = some arc → arc ∈ part.arcs := by
    intro arc harc
    have hmem := mem_arcsIn_ofRecordings.2 ⟨r, h, sameSource_self _, rfl, harc⟩
    rwa [arcsIn, hpart] at hmem
  rw [add]
  rw [Recording.lines] at hlines
  simp only [Recording.arc?] at harc
  cases hcoordinates : r.coordinates with
  | lines lines =>
    rw [hcoordinates] at hlines
    apply record_eq_self hpart
    rw [SortedSet.union_eq_left hlines]
  | arc arc =>
    rw [hcoordinates] at harc
    apply record_eq_self hpart
    rw [SortedSet.insert_eq_self (harc arc rfl)]

theorem ofRecordings_repeat {before : List Recording} {r : Recording} (after : List Recording)
    (h : r ∈ before) : ofRecordings (before ++ r :: after) = ofRecordings (before ++ after) := by
  rw [ofRecordings, ofRecordings, addAll_append, addAll_append]
  exact congrArg (·.addAll after) (add_eq_self h)

/-- Recordings in another order come to data that shows the same of every file, and one that
was taken before may be left out. The lines and arcs of a file are those of all recordings
for it. Its credit and its spelling are those of the first one. -/
theorem order_settles_credit_alone :
    (∀ first second : List Recording, first.Perm second →
      (ofRecordings first).Agrees (ofRecordings second)) ∧
    (∀ (before : List Recording) (r : Recording) (after : List Recording), r ∈ before →
      ofRecordings (before ++ r :: after) = ofRecordings (before ++ after)) ∧
    (∀ (recordings : List Recording) (path : Path),
      (∀ line, line ∈ (ofRecordings recordings).lines path ↔
        ∃ r ∈ recordings, sameSource r.source path ∧ line ∈ r.lines) ∧
      (∀ arc, arc ∈ (ofRecordings recordings).arcs path ↔
        ∃ r ∈ recordings, sameSource r.source path ∧ r.arc? = some arc) ∧
      (ofRecordings recordings).tracer? path =
        (recordings.find? fun r => sameSource r.source path).map (·.plugin) ∧
      (ofRecordings recordings).spelling? path =
        (recordings.find? fun r => sameSource r.source path).map (·.source)) := by
  refine ⟨fun first second hperm => agrees_of_mem_iff fun r => hperm.mem_iff,
    fun before r after => ofRecordings_repeat after, fun recordings path => ?_⟩
  exact ⟨fun line => mem_lines_ofRecordings, fun arc => mem_arcs_ofRecordings,
    tracer?_ofRecordings, spelling?_ofRecordings⟩

namespace Twice

/-- Two plug-ins record the same page under two spellings, and a page without lines. -/
def recordings : List Recording :=
  [⟨⟨"/site//page"⟩, "site.Alpha", "", .lines {2}⟩,
    ⟨⟨"/site/page/."⟩, "site.Beta", "test", .arc ⟨2, 3⟩⟩,
    ⟨⟨"/site/other"⟩, "site.Beta", "", .lines ∅⟩]

/-- The page keeps what was recorded of it when the order is turned around, and is credited
to the other plug-in. A recording that is taken again is not noticed. -/
theorem pages_in_turn :
    (recordings.Perm recordings.reverse ∧
        (ofRecordings recordings).Agrees (ofRecordings recordings.reverse)) ∧
      ((⟨⟨"/site/page/."⟩, "site.Beta", "test", .arc ⟨2, 3⟩⟩ : Recording) ∈ recordings ∧
        ofRecordings (recordings ++ [⟨⟨"/site/page/."⟩, "site.Beta", "test", .arc ⟨2, 3⟩⟩]) =
          ofRecordings (recordings ++ [])) ∧
      (ofRecordings recordings).spelling? ⟨"/site/./page"⟩ = some ⟨"/site//page"⟩ ∧
      (ofRecordings recordings.reverse).tracer? ⟨"/site/./page"⟩ = some "site.Beta" := by
  obtain ⟨hagrees, hrepeat, hfirst⟩ := order_settles_credit_alone
  have hperm : recordings.Perm recordings.reverse := (List.reverse_perm _).symm
  have hmem : (⟨⟨"/site/page/."⟩, "site.Beta", "test", .arc ⟨2, 3⟩⟩ : Recording) ∈ recordings := by
    decide
  obtain ⟨-, -, -, hspelling⟩ := hfirst recordings ⟨"/site/./page"⟩
  obtain ⟨-, -, hcredit, -⟩ := hfirst recordings.reverse ⟨"/site/./page"⟩
  refine ⟨⟨hperm, hagrees _ _ hperm⟩, ⟨hmem, hrepeat _ _ [] hmem⟩, hspelling.trans ?_,
    hcredit.trans ?_⟩
  all_goals decide +kernel

end Twice

end CoverageData

end Coverage
