/-
# What a recording does to a look-up

Data is read through three views: the lines of a file in one context, its arcs in
one context, and the plug-in that is credited with it. The statements below say
what each view shows after something was recorded: the new coordinates under the
file and the context of the recording, and the old ones everywhere else. Files
are compared by the components of their names throughout.
-/
import Coverage.Recorder
import Coverage.Proofs.Data.Lookups

namespace Coverage

/-! ## Spellings of one file name -/

namespace Recorder

theorem sameSource_iff {p q : Path} : sameSource p q = true ↔ compare p q = .eq := by
  rw [sameSource, beq_iff_eq]

@[simp]
theorem sameSource_self (p : Path) : sameSource p p = true :=
  sameSource_iff.2 Std.ReflCmp.compare_self

end Recorder

open Recorder

namespace CoverageData

/-- The lines of a file that were recorded in one context. -/
def linesIn (data : CoverageData) (source : Path) (context : String) : LineSet :=
  ((data.measured? source context).getD ∅).lines

/-- The arcs of a file that were recorded in one context. -/
def arcsIn (data : CoverageData) (source : Path) (context : String) : ArcSet :=
  ((data.measured? source context).getD ∅).arcs

@[simp]
theorem linesIn_empty (source : Path) (context : String) :
    (∅ : CoverageData).linesIn source context = ∅ := rfl

@[simp]
theorem arcsIn_empty (source : Path) (context : String) :
    (∅ : CoverageData).arcsIn source context = ∅ := rfl

/-- The parts of a file are what was recorded of it in one context each. -/
theorem mem_parts_iff {data : CoverageData} {source : Path} {part : Measured} :
    part ∈ data.parts source ↔ ∃ context, data.measured? source context = some part := by
  rw [parts]
  simp only [measured?]
  cases data.file? source with
  | none => simp
  | some file => exact SortedMap.mem_values_iff

/-- A file has a part with a property that nothing recorded does not have when it has it in
some context. -/
theorem exists_part_iff {data : CoverageData} {source : Path} {P : Measured → Prop}
    (hempty : ¬ P ∅) : (∃ part ∈ data.parts source, P part) ↔
      ∃ context, P ((data.measured? source context).getD ∅) := by
  constructor
  · rintro ⟨part, hpart, hproperty⟩
    obtain ⟨context, hmeasured⟩ := mem_parts_iff.1 hpart
    exact ⟨context, by rwa [hmeasured]⟩
  · rintro ⟨context, hproperty⟩
    cases hmeasured : data.measured? source context with
    | none =>
      rw [hmeasured] at hproperty
      exact absurd hproperty hempty
    | some part =>
      rw [hmeasured] at hproperty
      exact ⟨part, mem_parts_iff.2 ⟨context, hmeasured⟩, hproperty⟩

theorem mem_foldr_union {α : Type} [Ord α] [Std.TransOrd α] [Std.LawfulEqOrd α]
    {view : Measured → SortedSet α} {a : α} {parts : List Measured} :
    a ∈ parts.foldr (fun part all => view part ∪ all) (∅ : SortedSet α) ↔
      ∃ part ∈ parts, a ∈ view part := by
  induction parts with
  | nil => simp
  | cons part parts ih => simp [ih]

/-- The lines of a file are those of its contexts. -/
theorem mem_lines_iff {data : CoverageData} {source : Path} {line : Int} :
    line ∈ data.lines source ↔ ∃ context, line ∈ data.linesIn source context :=
  mem_foldr_union.trans (exists_part_iff (SortedSet.not_mem_empty line))

/-- The arcs of a file are those of its contexts. -/
theorem mem_arcs_iff {data : CoverageData} {source : Path} {arc : Arc} :
    arc ∈ data.arcs source ↔ ∃ context, arc ∈ data.arcsIn source context :=
  mem_foldr_union.trans (exists_part_iff (SortedSet.not_mem_empty arc))

section Record

variable (data : CoverageData) (source : Path) (plugin context : String)
  (change : Measured → Measured) (path : Path) (label : String)

/-- A recording touches one file, which is credited to the plug-in if it is new. -/
theorem file?_record :
    (data.record source plugin context change).file? path =
      if sameSource source path then
        let file := (data.file? path).getD ⟨plugin, ∅⟩
        some { file with contexts := file.contexts.alter context fun part => change (part.getD ∅) }
      else data.file? path := by
  by_cases h : sameSource source path = true
  · have hcompare : compare path source = .eq :=
      Std.OrientedCmp.eq_symm (sameSource_iff.1 h)
    have hfile : data.files.get? source = data.file? path :=
      SortedMap.get?_congr (sameSource_iff.1 h) data.files
    rw [if_pos h, file?, record, SortedMap.get?_alter, if_pos hcompare, hfile]
  · have hcompare : ¬ compare path source = .eq := fun hc =>
      h (sameSource_iff.2 (Std.OrientedCmp.eq_symm hc))
    rw [if_neg h, file?, record, SortedMap.get?_alter, if_neg hcompare, file?]

/-- A recording changes one part of one file. -/
theorem measured?_record :
    (data.record source plugin context change).measured? path label =
      if sameSource source path ∧ label = context then
        some (change ((data.measured? path label).getD ∅))
      else data.measured? path label := by
  rw [measured?, file?_record]
  by_cases h : sameSource source path = true
  · have hpart : ((data.file? path).getD ⟨plugin, ∅⟩).contexts.get? label =
        data.measured? path label := by
      rw [measured?]
      cases data.file? path <;> rfl
    rw [if_pos h, Option.bind_some, SortedMap.get?_alter]
    by_cases hlabel : label = context
    · subst hlabel
      have hself : compare label label = .eq := Std.ReflCmp.compare_self
      rw [if_pos hself, if_pos ⟨h, rfl⟩, hpart]
    · have hcompare : ¬ compare label context = .eq := fun hc =>
        hlabel (Std.LawfulEqCmp.eq_of_compare hc)
      rw [if_neg hcompare, if_neg fun hboth => hlabel hboth.2, hpart]
  · rw [if_neg h, if_neg fun hboth => h hboth.1]
    rfl

/-- A file keeps its first credit. -/
theorem tracer?_record :
    (data.record source plugin context change).tracer? path =
      if sameSource source path then some ((data.tracer? path).getD plugin)
      else data.tracer? path := by
  rw [tracer?, file?_record, tracer?]
  split
  · cases data.file? path <;> rfl
  · rfl

end Record

section Views

variable {data : CoverageData} {source path : Path} {plugin context label : String}

/-- Lines are added in their file and under their label, and nowhere else. -/
@[simp]
theorem mem_linesIn_addLines {lines : LineSet} {line : Int} :
    line ∈ (data.addLines source plugin context lines).linesIn path label ↔
      line ∈ data.linesIn path label ∨
        sameSource source path ∧ label = context ∧ line ∈ lines := by
  rw [linesIn, addLines, measured?_record]
  split
  · next h => simp [linesIn, h.1, h.2]
  · next h =>
    refine ⟨Or.inl, ?_⟩
    rintro (hold | ⟨hsource, hlabel, _⟩)
    · exact hold
    · exact absurd ⟨hsource, hlabel⟩ h

@[simp]
theorem arcsIn_addLines {lines : LineSet} :
    (data.addLines source plugin context lines).arcsIn path label = data.arcsIn path label := by
  rw [arcsIn, addLines, measured?_record]
  split <;> rfl

/-- An arc is added in its file and under its label, and nowhere else. -/
@[simp]
theorem mem_arcsIn_addArc {new arc : Arc} :
    arc ∈ (data.addArc source plugin context new).arcsIn path label ↔
      arc ∈ data.arcsIn path label ∨
        sameSource source path ∧ label = context ∧ arc = new := by
  rw [arcsIn, addArc, measured?_record]
  split
  · next h => simp [arcsIn, h.1, h.2, or_comm]
  · next h =>
    refine ⟨Or.inl, ?_⟩
    rintro (hold | ⟨hsource, hlabel, _⟩)
    · exact hold
    · exact absurd ⟨hsource, hlabel⟩ h

@[simp]
theorem linesIn_addArc {new : Arc} :
    (data.addArc source plugin context new).linesIn path label = data.linesIn path label := by
  rw [linesIn, addArc, measured?_record]
  split <;> rfl

end Views

end CoverageData

end Coverage
