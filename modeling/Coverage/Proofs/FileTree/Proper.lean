/-
# Proper trees

A tree is proper when every place in it is named by file names and nothing lies at a place
twice. Every tree that is put together is (`IsProper.place`). In a proper tree the children
of a directory are what the names in it lead to, so a path that leads to a directory goes on
to each child of it that is no link (`realLocation_join_name`): the names that a search takes
from the tree are found again by their paths.
-/
import Coverage.Proofs.FileTree.RealLocations
import Coverage.Proofs.Path.Descent
import Mathlib.Data.List.Nodup

namespace Coverage.FileTree

variable {tree : FileTree} {location workingDirectory : Location} {entry : Entry} {name : String}

/-- Places are named by file names, and nothing lies at a place twice. -/
structure IsProper (tree : FileTree) : Prop where
  named : ∀ below ∈ tree.entries, ∀ name ∈ below.1, IsFileName name
  once : (tree.entries.map (·.1)).Nodup

/-! ## What lies at a place -/

theorem entryAt_of_ne_nil (h : location ≠ []) :
    tree.entryAt location =
      (tree.entries.find? fun below => below.1 = location).map (·.2) := by
  rw [entryAt, if_neg (mt List.isEmpty_iff.1 h)]

theorem ne_nil_of_entryAt_eq_none (h : tree.entryAt location = none) : location ≠ [] := by
  rintro rfl
  cases h

/-- Nothing lies where the tree lists nothing. -/
theorem entryAt_eq_none_iff :
    tree.entryAt location = none ↔ location ≠ [] ∧ ∀ below ∈ tree.entries, below.1 ≠ location := by
  constructor
  · intro h
    have hsome := ne_nil_of_entryAt_eq_none h
    rw [entryAt_of_ne_nil hsome, Option.map_eq_none_iff, List.find?_eq_none] at h
    exact ⟨hsome, fun below hbelow heq => h below hbelow (decide_eq_true heq)⟩
  · rintro ⟨hsome, h⟩
    rw [entryAt_of_ne_nil hsome, Option.map_eq_none_iff, List.find?_eq_none]
    exact fun below hbelow heq => h below hbelow (of_decide_eq_true heq)

theorem mem_children :
    (name, entry) ∈ tree.children location ↔ (location ++ [name], entry) ∈ tree.entries := by
  rw [children, List.mem_filterMap]
  constructor
  · rintro ⟨⟨below, lies⟩, hbelow, h⟩
    split at h
    · next last hlast =>
      split at h
      · next habove =>
        obtain ⟨rfl, rfl⟩ := Prod.mk.inj (Option.some.inj h)
        obtain ⟨above, rfl⟩ := List.getLast?_eq_some_iff.1 hlast
        rw [List.dropLast_concat] at habove
        rwa [← habove]
      · cases h
    · cases h
  · intro h
    refine ⟨_, h, ?_⟩
    simp

namespace IsProper

theorem empty : IsProper ∅ where
  named _ h := absurd h List.not_mem_nil
  once := List.nodup_nil

/-- A place holds what the tree lists for it. -/
theorem entryAt_eq_some (h : tree.IsProper) (hsome : location ≠ [])
    (hentry : (location, entry) ∈ tree.entries) : tree.entryAt location = some entry := by
  cases hfound : tree.entryAt location with
  | none => exact absurd rfl ((entryAt_eq_none_iff.1 hfound).2 _ hentry)
  | some other =>
    rw [entryAt_of_ne_nil hsome, Option.map_eq_some_iff] at hfound
    obtain ⟨below, hbelow, rfl⟩ := hfound
    have hlocation : below.1 = location := by simpa using List.find?_some hbelow
    have hsame : below = (location, entry) :=
      List.inj_on_of_nodup_map h.once (List.mem_of_find?_eq_some hbelow) hentry hlocation
    rw [hsame]

theorem of_mem_children (h : tree.IsProper) (hchild : (name, entry) ∈ tree.children location) :
    IsFileName name ∧ tree.entryAt (location ++ [name]) = some entry := by
  have hmem := mem_children.1 hchild
  refine ⟨h.named _ hmem name (List.mem_append_right _ (List.mem_singleton_self name)), ?_⟩
  exact h.entryAt_eq_some (List.append_ne_nil_of_right_ne_nil _ (List.cons_ne_nil _ _)) hmem

/-! ## Trees that are put together -/

/-- Something new at a place of its own. -/
theorem append (h : tree.IsProper) (hnames : ∀ name ∈ location, IsFileName name)
    (hnew : ∀ below ∈ tree.entries, below.1 ≠ location) (entry : Entry) :
    IsProper ⟨tree.entries ++ [(location, entry)]⟩ where
  named := by
    rw [List.forall_mem_append]
    exact ⟨h.named, fun below hbelow => List.mem_singleton.1 hbelow ▸ hnames⟩
  once := by
    rw [List.map_append, List.map_singleton, ← List.concat_eq_append]
    refine List.Nodup.concat (fun hmem => ?_) h.once
    obtain ⟨below, hbelow, hlocation⟩ := List.mem_map.1 hmem
    exact hnew below hbelow hlocation

theorem makeDirectory (h : tree.IsProper) (hnames : ∀ name ∈ location, IsFileName name) :
    (tree.makeDirectory location).IsProper := by
  rw [FileTree.makeDirectory]
  split
  · exact h
  · next hnothing =>
    rw [Option.not_isSome_iff_eq_none, entryAt_eq_none_iff] at hnothing
    exact h.append hnames hnothing.2 .directory

theorem makeDirectories (h : tree.IsProper) {locations : List Location}
    (hnames : ∀ location ∈ locations, ∀ name ∈ location, IsFileName name) :
    (locations.foldl FileTree.makeDirectory tree).IsProper := by
  induction locations generalizing tree with
  | nil => exact h
  | cons location locations ih =>
    obtain ⟨hfirst, hrest⟩ := List.forall_mem_cons.1 hnames
    exact ih (h.makeDirectory hfirst) hrest

theorem without (h : tree.IsProper) (location : Location) :
    IsProper ⟨tree.entries.filter (·.1 ≠ location)⟩ where
  named below hbelow := h.named below (List.mem_of_mem_filter hbelow)
  once := h.once.sublist (List.filter_sublist.map _)

/-- Whatever is put anywhere, the tree stays proper. -/
theorem place (h : tree.IsProper) (hnames : ∀ name ∈ location, IsFileName name)
    (entry : Entry) : (tree.place location entry).IsProper := by
  have habove : ((above location).foldl FileTree.makeDirectory tree).IsProper := by
    apply h.makeDirectories
    intro higher hhigher name hname
    obtain ⟨depth, -, rfl⟩ := List.mem_map.1 hhigher
    exact hnames name (List.mem_of_mem_take hname)
  have hfree : ∀ below ∈ ((above location).foldl FileTree.makeDirectory tree).entries.filter
      (·.1 ≠ location), below.1 ≠ location :=
    fun below hbelow => of_decide_eq_true (List.mem_filter.1 hbelow).2
  rw [FileTree.place.eq_def]
  dsimp only
  split
  · exact habove.makeDirectory hnames
  · exact (habove.without location).append hnames hfree entry

end IsProper

/-! ## Going on to a child -/

/-- Pieces that are taken one after the other. -/
theorem follow_append (tree : FileTree) (location : Location)
    (pieces more : List (List Char)) : tree.follow location (pieces ++ more) =
      match tree.follow location pieces with
      | .arrived place => tree.follow place more
      | .atLink directory target rest => .atLink directory target (rest ++ more)
      | .lost => .lost := by
  induction pieces generalizing location with
  | nil => rfl
  | cons piece rest ih =>
    rw [List.cons_append, follow_cons, follow_cons]
    rcases tree.step? location piece with _ | next | target
    · rfl
    · exact ih next
    · rfl

/-- One more piece is taken from where the others lead. -/
theorem resolveFrom_concat {links : Nat} {start next : Location} {pieces : List (List Char)}
    {piece : List Char} (h : tree.resolveFrom links start pieces = some location)
    (hstep : tree.step? location piece = some (.inl next)) :
    tree.resolveFrom links start (pieces ++ [piece]) = some next := by
  have hlast : tree.follow location [piece] = .arrived next := by
    rw [follow_cons, hstep]
    rfl
  have hgoes {links : Nat} {start : Location} {pieces : List (List Char)}
      (hfollow : tree.follow start pieces = .arrived location) :
      tree.resolveFrom links start (pieces ++ [piece]) = some next := by
    apply resolveFrom_of_arrived
    rw [follow_append, hfollow]
    exact hlast
  induction links generalizing start pieces with
  | zero =>
    obtain hfollow | ⟨left, _, _, _, hleft, -⟩ := resolveFrom_cases h
    · exact hgoes hfollow
    · cases hleft
  | succ links ih =>
    obtain hfollow | ⟨left, directory, target, rest, hleft, hfollow, hrest⟩ := resolveFrom_cases h
    · exact hgoes hfollow
    -- the piece waits behind the rest until the target of the link has been followed
    · obtain rfl := Nat.succ.inj hleft
      have hmore := ih hrest
      rw [List.append_assoc] at hmore
      have hall : tree.follow start (pieces ++ [piece]) =
          .atLink directory target (rest ++ [piece]) := by
        rw [follow_append, hfollow]
      rw [resolveFrom, hfollow] at h
      rw [resolveFrom, hall]
      dsimp only at h ⊢
      split at h
      · cases h
      · next htarget => rw [if_neg htarget, hmore]

/-- A path that leads to a directory goes on to what lies there, when that is no link. -/
theorem realLocation_join_name {p : Path}
    (h : tree.realLocation workingDirectory p = some location)
    (hdirectory : tree.isDirectory location = true) (hname : IsFileName name)
    (hentry : tree.entryAt (location ++ [name]) = some entry)
    (hnolink : ∀ target, entry ≠ .link target) :
    tree.realLocation workingDirectory (p.join ⟨name⟩) = some (location ++ [name]) := by
  have hp := text_ne_of_realLocation h
  have hstep := step?_toList hdirectory hname hentry hnolink
  rw [realLocation, if_neg (mt String.isEmpty_iff.1 hp)] at h
  rw [realLocation, if_neg (mt String.isEmpty_iff.1 (Path.text_join_name_ne p hname)),
    Path.isAbsolute_join_name hp hname, Path.pieces_join_name p hname,
    ← resolveFrom_concat h hstep]
  obtain ⟨fillers, hfillers, hpieces⟩ := p.exists_pieces_eq_stem_append
  rw [hpieces, List.append_assoc]
  have hthinned : Thinned (fillers ++ [name.toList]) [name.toList] :=
    (Thinned.keep _ .nil).drop_fillers (List.cons_ne_nil _ _) hfillers
  exact ((hthinned.append_left p.stem).resolveFrom _ _ _).symm

end Coverage.FileTree
