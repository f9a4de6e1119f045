/-
# Real locations

A location is real when every name on the way to it is held by a real directory and is no
link. Where a path leads is real (`isReal_of_realLocation`), and the path that spells a
real location leads there (`realLocation_path`).

A piece that names nothing only asks for a directory, and so does whatever comes after it.
Such a piece can be left out unless it is the last one: a `Thinned` path leads where the
path itself leads.
-/
import Coverage.FileTree.Resolve
import Coverage.Proofs.Path.Normal

namespace Coverage.FileTree

variable {tree : FileTree} {location place workingDirectory : Location}
variable {piece : List Char} {pieces rest : List (List Char)}

/-! ## One piece -/

/-- Where one piece leads from a location: to another one, or to a link with a target. -/
def step? (tree : FileTree) (location : Location) (piece : List Char) :
    Option (Location ⊕ Path) :=
  if tree.isDirectory location then
    match Component.ofPiece? piece with
    | some .parent => some (.inl location.dropLast)
    | some (.normal name) =>
      match tree.entryAt (location ++ [name]) with
      | some (.link target) => some (.inr target)
      | some _ => some (.inl (location ++ [name]))
      | none => none
    | _ => some (.inl location)
  else none

theorem follow_cons (tree : FileTree) (location : Location) (piece : List Char)
    (rest : List (List Char)) : tree.follow location (piece :: rest) =
      match tree.step? location piece with
      | some (.inl next) => tree.follow next rest
      | some (.inr target) => .atLink location target rest
      | none => .lost := by
  rw [follow, step?]
  cases tree.isDirectory location with
  | false => rfl
  | true =>
    rw [if_pos rfl, if_pos rfl]
    cases Component.ofPiece? piece with
    | none => rfl
    | some component =>
      cases component with
      | normal name =>
        dsimp only
        rcases tree.entryAt (location ++ [name]) with _ | _ | _ | _ <;> rfl
      | root | current | parent => rfl

theorem step?_of_isFiller (hdirectory : tree.isDirectory location = true)
    (hfiller : Path.isFiller piece = true) : tree.step? location piece = some (.inl location) := by
  rw [step?, if_pos hdirectory, Option.isNone_iff_eq_none.1 hfiller]

theorem step?_of_not_isDirectory (h : tree.isDirectory location = false) :
    tree.step? location piece = none := by
  rw [step?, if_neg (Bool.eq_false_iff.1 h)]

/-- A name leads to what lies there, when that is no link. -/
theorem step?_toList {name : String} {entry : Entry} (hdirectory : tree.isDirectory location = true)
    (hname : IsFileName name) (hentry : tree.entryAt (location ++ [name]) = some entry)
    (hnolink : ∀ target, entry ≠ .link target) :
    tree.step? location name.toList = some (.inl (location ++ [name])) := by
  rw [step?, if_pos hdirectory, hname.ofPiece?_toList]
  cases entry with
  | link target => exact absurd rfl (hnolink target)
  | file content => simp only [hentry]
  | directory => simp only [hentry]

/-- A filler before another piece asks for nothing that the other does not ask for. -/
theorem follow_isFiller_cons (hfiller : Path.isFiller piece = true) (hrest : rest ≠ []) :
    tree.follow location (piece :: rest) = tree.follow location rest := by
  obtain ⟨next, others, rfl⟩ := List.exists_cons_of_ne_nil hrest
  cases hdirectory : tree.isDirectory location with
  | true => rw [follow_cons, step?_of_isFiller hdirectory hfiller]
  | false =>
    rw [follow_cons, follow_cons, step?_of_not_isDirectory hdirectory,
      step?_of_not_isDirectory hdirectory]

/-! ## Real locations -/

/-- A location that is reached from the root through directories and no link. -/
inductive IsReal (tree : FileTree) : Location → Prop
  | root : IsReal tree []
  | child {location : Location} {name : String} {entry : Entry} : IsReal tree location →
      tree.isDirectory location = true → IsFileName name →
      tree.entryAt (location ++ [name]) = some entry → (∀ target, entry ≠ .link target) →
      IsReal tree (location ++ [name])

namespace IsReal

theorem isFileName (h : tree.IsReal location) : ∀ name ∈ location, IsFileName name := by
  induction h with
  | root => exact fun _ hname => nomatch hname
  | child _ _ hfile _ _ ih =>
    intro name hname
    rcases List.mem_append.1 hname with hname | hname
    · exact ih name hname
    · rwa [List.mem_singleton.1 hname]

theorem dropLast (h : tree.IsReal location) : tree.IsReal location.dropLast := by
  cases h with
  | root => exact .root
  | child habove =>
    rw [List.dropLast_concat]
    exact habove

theorem step? {next : Location} (h : tree.IsReal location) (hpiece : '/' ∉ piece)
    (hnext : tree.step? location piece = some (.inl next)) : tree.IsReal next := by
  rw [FileTree.step?] at hnext
  split at hnext
  · next hdirectory =>
    split at hnext
    · rw [← Sum.inl.inj (Option.some.inj hnext)]
      exact h.dropLast
    · next name hname =>
      split at hnext
      · cases hnext
      · next entry hnolink hentry =>
        rw [← Sum.inl.inj (Option.some.inj hnext)]
        obtain ⟨rfl, hempty, hcurrent, hparent⟩ := Component.ofPiece?_eq_normal_iff.1 hname
        refine .child h hdirectory ⟨hempty, hcurrent, hparent, hpiece⟩ hentry fun target hlink => ?_
        exact hnolink target hlink
      · cases hnext
    · rw [← Sum.inl.inj (Option.some.inj hnext)]
      exact h
  · cases hnext

end IsReal

/-- What is known of the way from a real location. -/
def Way.IsReal (tree : FileTree) : Way → Prop
  | .arrived place => tree.IsReal place
  | .atLink directory _ rest => tree.IsReal directory ∧ ∀ piece ∈ rest, '/' ∉ piece
  | .lost => True

theorem isReal_follow (h : tree.IsReal location) (hpieces : ∀ piece ∈ pieces, '/' ∉ piece) :
    (tree.follow location pieces).IsReal tree := by
  induction pieces generalizing location with
  | nil => exact h
  | cons piece rest ih =>
    obtain ⟨hpiece, hrest⟩ := List.forall_mem_cons.1 hpieces
    rw [follow_cons]
    split
    · next next hnext => exact ih (h.step? hpiece hnext) hrest
    · exact ⟨h, hrest⟩
    · exact trivial

/-! ## From link to link -/

section Links

variable {directory : Location} {target : Path} {links : Nat}

theorem resolveFrom_of_arrived (h : tree.follow location pieces = .arrived place) :
    tree.resolveFrom links location pieces = some place := by
  cases links <;> rw [resolveFrom, h]

/-- What is reached is reached without a link, or from the first link on. -/
theorem resolveFrom_cases (h : tree.resolveFrom links location pieces = some place) :
    tree.follow location pieces = .arrived place ∨
      ∃ left directory target rest, links = left + 1 ∧
        tree.follow location pieces = .atLink directory target rest ∧
        tree.resolveFrom left (if target.isAbsolute then [] else directory)
          (target.pieces ++ rest) = some place := by
  rw [resolveFrom.eq_def] at h
  dsimp only at h
  cases hfollow : tree.follow location pieces with
  | arrived other =>
    rw [hfollow] at h
    exact .inl (congrArg Way.arrived (Option.some.inj h))
  | atLink directory target rest =>
    rw [hfollow] at h
    cases links with
    | zero => cases h
    | succ left =>
      dsimp only at h
      split at h
      · cases h
      · exact .inr ⟨left, directory, target, rest, rfl, rfl, h⟩
  | lost =>
    rw [hfollow] at h
    cases h

/-- Links end in real locations as well. -/
theorem isReal_of_resolveFrom (h : tree.IsReal location) (hpieces : ∀ piece ∈ pieces, '/' ∉ piece)
    (hplace : tree.resolveFrom links location pieces = some place) : tree.IsReal place := by
  induction links generalizing location pieces with
  | zero =>
    have hway := isReal_follow h hpieces
    rcases resolveFrom_cases hplace with hfollow | ⟨left, _, _, _, hleft, -⟩
    · rwa [hfollow] at hway
    · cases hleft
  | succ links ih =>
    have hway := isReal_follow h hpieces
    rcases resolveFrom_cases hplace with
      hfollow | ⟨left, directory, target, rest, hleft, hfollow, hrest⟩
    · rwa [hfollow] at hway
    · rw [hfollow] at hway
      obtain rfl := Nat.succ.inj hleft
      refine ih ?_ (fun piece hpiece => ?_) hrest
      · split
        · exact .root
        · exact hway.1
      · rcases List.mem_append.1 hpiece with hpiece | hpiece
        · exact notMem_of_mem_splitOn hpiece
        · exact hway.2 piece hpiece

theorem resolveFrom_congr {other : Location} {others : List (List Char)} (links : Nat)
    (h : tree.follow location pieces = tree.follow other others) :
    tree.resolveFrom links location pieces = tree.resolveFrom links other others := by
  cases links <;> rw [resolveFrom, resolveFrom, h]

end Links

/-- The empty path leads nowhere. -/
theorem text_ne_of_realLocation {p : Path}
    (h : tree.realLocation workingDirectory p = some place) : p.text ≠ "" := by
  intro hempty
  rw [realLocation, if_pos (String.isEmpty_iff.2 hempty)] at h
  cases h

/-- Where a path leads is real. -/
theorem isReal_of_realLocation {p : Path} (h : tree.IsReal workingDirectory)
    (hplace : tree.realLocation workingDirectory p = some place) : tree.IsReal place := by
  rw [realLocation] at hplace
  split at hplace
  · cases hplace
  · refine isReal_of_resolveFrom ?_ (fun _ hpiece => notMem_of_mem_splitOn hpiece) hplace
    split
    · exact .root
    · exact h

/-! ## The way to a real location -/

/-- The names of a real location lead to it. -/
theorem follow_of_isReal (h : tree.IsReal location) (rest : List (List Char)) :
    tree.follow [] (location.map String.toList ++ rest) = tree.follow location rest := by
  induction h generalizing rest with
  | root => rfl
  | @child location name entry _ hdirectory hfile hentry hnolink ih =>
    rw [List.map_append, List.append_assoc, ih, List.map_singleton, List.singleton_append,
      follow_cons, step?_toList hdirectory hfile hentry hnolink]

theorem follow_root_of_isReal (h : tree.IsReal location)
    (hsome : location.map String.toList ++ rest ≠ []) :
    tree.follow [] ([] :: (location.map String.toList ++ rest)) = tree.follow location rest := by
  rw [follow_isFiller_cons rfl hsome, follow_of_isReal h]

/-- The path that spells a real location leads there. -/
theorem realLocation_path (h : tree.IsReal location) :
    tree.realLocation workingDirectory location.path = some location := by
  have habsolute : location.path.isAbsolute = true := Path.isAbsolute_ofNames location
  rw [realLocation, if_neg (Path.text_nonempty habsolute), if_pos habsolute, Location.path,
    Path.pieces_ofNames h.isFileName]
  split
  · next hroot =>
    rw [hroot]
    rfl
  · next hbelow =>
    have hsome : location.map String.toList ++ [] ≠ [] := by
      rw [List.append_nil]
      exact fun hnil => hbelow (List.map_eq_nil_iff.1 hnil)
    have hfollow : tree.follow [] ([] :: location.map String.toList) = .arrived location := by
      have hfollow := follow_root_of_isReal h hsome
      rwa [List.append_nil] at hfollow
    exact resolveFrom_of_arrived hfollow

/-! ## Pieces that can be left out -/

/-- The same pieces without some that name nothing and stand before others. -/
inductive Thinned : List (List Char) → List (List Char) → Prop
  | nil : Thinned [] []
  | keep {pieces fewer : List (List Char)} (piece : List Char) :
      Thinned pieces fewer → Thinned (piece :: pieces) (piece :: fewer)
  | drop {pieces fewer : List (List Char)} {filler : List Char} :
      Path.isFiller filler = true → pieces ≠ [] → Thinned pieces fewer →
      Thinned (filler :: pieces) fewer

namespace Thinned

variable {fewer : List (List Char)}

theorem append_left (before : List (List Char)) (h : Thinned pieces fewer) :
    Thinned (before ++ pieces) (before ++ fewer) := by
  induction before with
  | nil => exact h
  | cons piece before ih => exact .keep piece ih

/-- Fillers in front of other pieces can be left out. -/
theorem drop_fillers {fillers : List (List Char)} (h : Thinned pieces fewer) (hsome : pieces ≠ [])
    (hfillers : ∀ filler ∈ fillers, Path.isFiller filler = true) :
    Thinned (fillers ++ pieces) fewer := by
  induction fillers with
  | nil => exact h
  | cons filler fillers ih =>
    obtain ⟨hfirst, hrest⟩ := List.forall_mem_cons.1 hfillers
    exact .drop hfirst (List.append_ne_nil_of_right_ne_nil _ hsome) (ih hrest)

theorem ne_nil (h : Thinned pieces fewer) (hpieces : pieces ≠ []) : fewer ≠ [] := by
  induction h with
  | nil => exact absurd rfl hpieces
  | keep piece => exact List.cons_ne_nil _ _
  | drop _ hrest _ ih => exact ih hrest

/-- The ways of a path and of its thinned form end alike. -/
inductive Alike : Way → Way → Prop
  | arrived (place : Location) : Alike (.arrived place) (.arrived place)
  | atLink {rest fewer : List (List Char)} (directory : Location) (target : Path) :
      Thinned rest fewer → Alike (.atLink directory target rest) (.atLink directory target fewer)
  | lost : Alike .lost .lost

theorem follow (h : Thinned pieces fewer) (tree : FileTree) (location : Location) :
    Alike (tree.follow location pieces) (tree.follow location fewer) := by
  induction h generalizing location with
  | nil => exact .arrived location
  | keep piece hrest ih =>
    rw [follow_cons, follow_cons]
    rcases tree.step? location piece with _ | next | target
    · exact .lost
    · exact ih next
    · exact .atLink location target hrest
  | drop hfiller hrest _ ih =>
    rw [follow_isFiller_cons hfiller hrest]
    exact ih location

/-- A thinned path leads where the path leads. -/
theorem resolveFrom (h : Thinned pieces fewer) (tree : FileTree) (links : Nat)
    (location : Location) :
    tree.resolveFrom links location pieces = tree.resolveFrom links location fewer := by
  induction links generalizing location pieces fewer with
  | zero =>
    have hways := h.follow tree location
    rw [FileTree.resolveFrom, FileTree.resolveFrom]
    generalize tree.follow location pieces = way, tree.follow location fewer = other at hways ⊢
    cases hways with
    | arrived | atLink | lost => rfl
  | succ links ih =>
    have hways := h.follow tree location
    rw [FileTree.resolveFrom, FileTree.resolveFrom]
    generalize tree.follow location pieces = way, tree.follow location fewer = other at hways ⊢
    cases hways with
    | arrived | lost => rfl
    | atLink directory target hrest =>
      dsimp only
      rw [ih (hrest.append_left target.pieces)]

/-- Fillers may go where no piece leads upwards and the last one is a name. -/
theorem of_named {names : List String}
    (hlast : ∀ last, pieces.getLast? = some last → Path.isFiller last = false)
    (hnamed : Path.named pieces = names.map Component.normal) :
    Thinned pieces (names.map String.toList) := by
  induction pieces generalizing names with
  | nil =>
    obtain rfl := List.map_eq_nil_iff.1 hnamed.symm
    exact .nil
  | cons piece rest ih =>
    have hrest : ∀ last, rest.getLast? = some last → Path.isFiller last = false := by
      intro last hsome
      refine hlast last ?_
      rw [List.getLast?_cons, hsome, Option.getD_some]
    cases hpiece : Component.ofPiece? piece with
    | none =>
      rw [Path.named, List.filterMap_cons_none hpiece] at hnamed
      have hfiller : Path.isFiller piece = true := Option.isNone_iff_eq_none.2 hpiece
      refine .drop hfiller ?_ (ih hrest hnamed)
      rintro rfl
      rw [hlast piece rfl] at hfiller
      cases hfiller
    | some component =>
      rw [Path.named, List.filterMap_cons_some hpiece] at hnamed
      cases names with
      | nil => cases hnamed
      | cons name names =>
        obtain ⟨rfl, htail⟩ := List.cons.inj hnamed
        rw [List.map_cons, ← (Component.ofPiece?_eq_normal_iff.1 hpiece).1]
        exact .keep piece (ih hrest htail)

end Thinned

end Coverage.FileTree

namespace Coverage.Path

variable {p : Path}

/-- A path that leads upwards nowhere and ends in a name. -/
structure IsDirect (p : Path) : Prop where
  no_parent : ['.', '.'] ∉ p.pieces
  ends_in_name : ∀ last, p.pieces.getLast? = some last → isFiller last = false

/-- The normal form of a direct path is the path without its fillers. -/
theorem IsDirect.thinned (h : p.IsDirect) (habsolute : p.isAbsolute = true) :
    FileTree.Thinned p.pieces p.normal.pieces := by
  obtain ⟨rest, hrest⟩ := isAbsolute_iff.1 habsolute
  have hpieces : p.pieces = [] :: rest.splitOn '/' := by
    rw [pieces, hrest, splitOn_separator_cons]
  have hlast : ∀ last, (rest.splitOn '/').getLast? = some last → isFiller last = false := by
    intro last hsome
    refine h.ends_in_name last ?_
    rw [hpieces, List.getLast?_cons, hsome, Option.getD_some]
  obtain ⟨names, hnamed⟩ := exists_named_eq_map h.no_parent
  have hnames : lexicalNames p.components = names := by
    rw [lexicalNames_components, hnamed, lexicalNames_map_normal]
  rw [hpieces, named_nil_cons] at hnamed
  have hthinned := FileTree.Thinned.of_named hlast hnamed
  have hsome : names ≠ [] := fun hnone =>
    hthinned.ne_nil (List.splitOn_ne_nil _ _) (List.map_eq_nil_iff.2 hnone)
  have hfile : ∀ name ∈ names, IsFileName name := hnames ▸ isFileName_of_mem_lexicalNames
  rw [normal_of_isAbsolute habsolute, hnames, pieces_ofNames hfile, if_neg hsome, hpieces]
  exact .keep [] hthinned

end Coverage.Path
