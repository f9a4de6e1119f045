/-
# Pieces of file names

The text of a path is cut at every separator, and each piece names a component or is
passed over. A piece that names a file has no separator in it and is neither empty nor a
dot nor two dots: these are the names that `IsFileName` admits, and a path that is made
of such names is cut into exactly them. Joining two paths puts their pieces one after the
other.
-/
import Coverage.Path.Basic
import Coverage.Proofs.Text.Pieces

namespace Coverage

/-- A name that a file can have in its directory. -/
structure IsFileName (name : String) : Prop where
  ne_empty : name ≠ ""
  ne_current : name ≠ "."
  ne_parent : name ≠ ".."
  no_separator : '/' ∉ name.toList

instance : DecidablePred IsFileName := fun name =>
  decidable_of_iff (name ≠ "" ∧ name ≠ "." ∧ name ≠ ".." ∧ '/' ∉ name.toList)
    ⟨fun ⟨hempty, hcurrent, hparent, hseparator⟩ => ⟨hempty, hcurrent, hparent, hseparator⟩,
      fun ⟨hempty, hcurrent, hparent, hseparator⟩ => ⟨hempty, hcurrent, hparent, hseparator⟩⟩

namespace Component

/-- A piece names a file when it is no filler and does not lead upwards. -/
theorem ofPiece?_eq_normal_iff {piece : List Char} {name : String} :
    ofPiece? piece = some (.normal name) ↔
      piece = name.toList ∧ name ≠ "" ∧ name ≠ "." ∧ name ≠ ".." := by
  constructor
  · intro h
    unfold ofPiece? at h
    split at h
    · cases h
    · cases h
    · cases h
    · next hempty hcurrent hparent =>
      obtain rfl := normal.inj (Option.some.inj h)
      refine ⟨String.toList_ofList.symm, ?_, ?_, ?_⟩
      · rintro hname
        exact hempty (by simpa using congrArg String.toList hname)
      · rintro hname
        exact hcurrent (by simpa using congrArg String.toList hname)
      · rintro hname
        exact hparent (by simpa using congrArg String.toList hname)
  · rintro ⟨rfl, hempty, hcurrent, hparent⟩
    unfold ofPiece?
    split
    · next h => exact absurd (String.toList_inj.1 h) hempty
    · next h => exact absurd (String.toList_inj.1 h) hcurrent
    · next h => exact absurd (String.toList_inj.1 h) hparent
    · rw [String.ofList_toList]

/-- Only two dots lead upwards. -/
theorem ofPiece?_eq_parent_iff {piece : List Char} :
    ofPiece? piece = some .parent ↔ piece = ['.', '.'] := by
  constructor
  · intro h
    unfold ofPiece? at h
    split at h
    · cases h
    · cases h
    · rfl
    · cases h
  · rintro rfl
    rfl

end Component

/-- A file name, as a piece, names itself. -/
theorem IsFileName.ofPiece?_toList {name : String} (h : IsFileName name) :
    Component.ofPiece? name.toList = some (.normal name) :=
  Component.ofPiece?_eq_normal_iff.2 ⟨rfl, h.ne_empty, h.ne_current, h.ne_parent⟩

namespace Path

variable {p q : Path}

/-- An absolute path starts with a separator. -/
theorem isAbsolute_iff : p.isAbsolute = true ↔ ∃ rest, p.text.toList = '/' :: rest := by
  rw [isAbsolute, beq_iff_eq, List.head?_eq_some_iff]

/-- The text of an absolute path is not empty. -/
theorem text_nonempty (h : p.isAbsolute = true) : ¬ p.text.isEmpty = true := by
  obtain ⟨rest, hrest⟩ := isAbsolute_iff.1 h
  rw [String.isEmpty_iff]
  intro hnone
  rw [hnone] at hrest
  cases hrest

/-- Even an empty text has a piece, which is empty. -/
theorem pieces_ne_nil (p : Path) : p.pieces ≠ [] := List.splitOn_ne_nil _ _

/-- A text that is put together at a separator is cut there. -/
theorem pieces_of_toList_eq {before after : List Char}
    (h : p.text.toList = before ++ '/' :: after) :
    p.pieces = before.splitOn '/' ++ after.splitOn '/' := by
  rw [pieces, h, List.splitOn_append_cons_self]

/-- In front of a separator at the start there is an empty piece. -/
theorem splitOn_separator_cons (text : List Char) :
    ('/' :: text).splitOn '/' = [] :: text.splitOn '/' := List.splitOn_append_cons_self [] text

/-- The characters of two texts with a separator between them. -/
theorem toList_append_separator (first second : String) :
    (first ++ "/" ++ second).toList = first.toList ++ '/' :: second.toList := by
  rw [String.toList_append, String.toList_append, List.append_assoc]
  rfl

/-- The components that pieces name. -/
def named (pieces : List (List Char)) : List Component := pieces.filterMap Component.ofPiece?

@[simp]
theorem named_append (first second : List (List Char)) :
    named (first ++ second) = named first ++ named second := List.filterMap_append

/-- An empty piece names nothing. -/
@[simp]
theorem named_nil_cons (pieces : List (List Char)) : named ([] :: pieces) = named pieces := rfl

@[simp]
theorem named_nil : named [] = [] := rfl

/-- File names, as pieces, name themselves. -/
theorem named_map_toList {names : List String} (h : ∀ name ∈ names, IsFileName name) :
    named (names.map String.toList) = names.map Component.normal := by
  rw [named, List.filterMap_map, ← List.filterMap_eq_map]
  exact List.filterMap_congr fun name hname => (h name hname).ofPiece?_toList

/-- Pieces that do not lead upwards name files only. -/
theorem exists_named_eq_map {pieces : List (List Char)} (h : ['.', '.'] ∉ pieces) :
    ∃ names : List String, named pieces = names.map Component.normal := by
  induction pieces with
  | nil => exact ⟨[], rfl⟩
  | cons piece rest ih =>
    rw [List.mem_cons, not_or] at h
    obtain ⟨names, hnames⟩ := ih h.2
    unfold named at hnames ⊢
    cases hpiece : Component.ofPiece? piece with
    | none => exact ⟨names, by rw [List.filterMap_cons_none hpiece, hnames]⟩
    | some component =>
      rw [List.filterMap_cons_some hpiece, hnames]
      cases component with
      | normal name => exact ⟨name :: names, rfl⟩
      | parent => exact absurd (Component.ofPiece?_eq_parent_iff.1 hpiece).symm h.1
      | root | current =>
        unfold Component.ofPiece? at hpiece
        split at hpiece <;> cases hpiece

/-- An absolute path is the root and what its pieces name. -/
theorem components_of_isAbsolute (h : p.isAbsolute = true) :
    p.components = .root :: named p.pieces := by
  rw [components, head, if_pos h]
  rfl

/-- A component that names a file does so with a file name. -/
theorem isFileName_of_mem_components {name : String} (h : .normal name ∈ p.components) :
    IsFileName name := by
  have hnamed : .normal name ∈ named p.pieces := by
    refine (List.mem_append.1 h).resolve_left fun hhead => ?_
    rw [head] at hhead
    split at hhead
    · cases List.mem_singleton.1 hhead
    · split at hhead
      · cases List.mem_singleton.1 hhead
      · cases hhead
  obtain ⟨piece, hpiece, hname⟩ := List.mem_filterMap.1 hnamed
  obtain ⟨rfl, hempty, hcurrent, hparent⟩ := Component.ofPiece?_eq_normal_iff.1 hname
  exact ⟨hempty, hcurrent, hparent, notMem_of_mem_splitOn hpiece⟩

/-! ## Paths of names -/

section Names

variable {names : List String}

/-- The path of names starts with a separator and has one between any two names. -/
theorem toList_ofNames (names : List String) :
    (ofNames names).text.toList = '/' :: ['/'].intercalate (names.map String.toList) := by
  rw [ofNames, String.toList_append, String.toList_intercalate]
  rfl

/-- The path of names is absolute. -/
theorem isAbsolute_ofNames (names : List String) : (ofNames names).isAbsolute = true :=
  isAbsolute_iff.2 ⟨_, toList_ofNames names⟩

/-- Names that are put together at separators are cut there. -/
theorem splitOn_intercalate_toList (h : ∀ name ∈ names, IsFileName name) (hsome : names ≠ []) :
    (['/'].intercalate (names.map String.toList)).splitOn '/' = names.map String.toList := by
  apply List.splitOn_intercalate
  · intro piece hpiece
    obtain ⟨name, hname, rfl⟩ := List.mem_map.1 hpiece
    exact (h name hname).no_separator
  · exact fun hnil => hsome (List.map_eq_nil_iff.1 hnil)

/-- The path of names is cut into an empty piece and the names; that of no names, which is the
root alone, into two empty pieces. -/
theorem pieces_ofNames (h : ∀ name ∈ names, IsFileName name) :
    (ofNames names).pieces = [] :: if names = [] then [[]] else names.map String.toList := by
  have htext : (ofNames names).text.toList =
      [] ++ '/' :: ['/'].intercalate (names.map String.toList) := toList_ofNames names
  rw [pieces_of_toList_eq htext, List.splitOn_nil, List.singleton_append]
  split
  · next hnone =>
    rw [hnone]
    rfl
  · next hsome => rw [splitOn_intercalate_toList h hsome]

/-- The pieces of the path of names name just these names. -/
theorem named_pieces_ofNames (h : ∀ name ∈ names, IsFileName name) :
    named (ofNames names).pieces = names.map Component.normal := by
  rw [pieces_ofNames h, named_nil_cons]
  split
  · next hnone =>
    rw [hnone]
    rfl
  · exact named_map_toList h

/-- The path of names goes from the root by these names. -/
theorem components_ofNames (h : ∀ name ∈ names, IsFileName name) :
    (ofNames names).components = .root :: names.map Component.normal := by
  rw [components_of_isAbsolute (isAbsolute_ofNames names), named_pieces_ofNames h]

end Names

/-! ## Joined paths -/

/-- An absolute path stands for itself wherever it is seen from. -/
theorem join_of_isAbsolute (p : Path) (h : q.isAbsolute = true) : p.join q = q := by
  rw [join, if_pos h]

/-- From an absolute path every path is absolute. -/
theorem isAbsolute_join (q : Path) (h : p.isAbsolute = true) : (p.join q).isAbsolute = true := by
  obtain ⟨rest, hrest⟩ := isAbsolute_iff.1 h
  rw [join]
  split
  · next hq => exact hq
  · apply isAbsolute_iff.2
    split
    · exact ⟨rest ++ q.text.toList, by rw [String.toList_append, hrest, List.cons_append]⟩
    · refine ⟨rest ++ ("/" ++ q.text).toList, ?_⟩
      rw [String.append_assoc, String.toList_append, hrest, List.cons_append]

/-- A relative path that is joined to a directory goes on from there. -/
theorem named_pieces_join (p : Path) (h : q.isAbsolute = false) :
    named (p.join q).pieces = named p.pieces ++ named q.pieces := by
  rw [join, if_neg (Bool.eq_false_iff.1 h)]
  split
  · next hends =>
    rcases List.eq_nil_or_concat p.text.toList with hnil | ⟨before, last, hlast⟩
    · have hpieces : p.pieces = [[]] := by rw [pieces, hnil, List.splitOn_nil]
      rw [hpieces, pieces, String.toList_append, hnil, List.nil_append, named_nil_cons, named_nil,
        List.nil_append, pieces]
    · rw [List.concat_eq_append] at hlast
      rw [hlast, List.getLast?_concat, Option.all_some, beq_iff_eq] at hends
      subst hends
      have hjoined : (⟨p.text ++ q.text⟩ : Path).text.toList = before ++ '/' :: q.text.toList := by
        rw [String.toList_append, hlast, List.append_assoc, List.singleton_append]
      rw [pieces_of_toList_eq hjoined, pieces_of_toList_eq hlast, named_append, named_append,
        List.splitOn_nil, named_nil_cons, named_nil, List.append_nil, pieces]
  · have hjoined : (⟨p.text ++ "/" ++ q.text⟩ : Path).text.toList =
        p.text.toList ++ '/' :: q.text.toList := toList_append_separator p.text q.text
    rw [pieces_of_toList_eq hjoined, named_append, pieces, pieces]

end Path

end Coverage
