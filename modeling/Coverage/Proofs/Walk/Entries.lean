/-
# What a walk comes to

A walk keeps two accounts of where it is: the path that it spells from its root, and the
real place that it has reached. They agree all the way (`isBelow_of_mem_below`): the path of
every entry leads to a regular file or a directory, as the entry says, also behind links. So
the path of an entry is the root followed by file names, and below the root it is these
names.
-/
import Coverage.Proofs.FileTree.Proper
import Coverage.Walk

namespace Coverage

/-- What the path of an entry leads to. -/
structure WalkEntry.Leads (host : Host) (found : WalkEntry) (place : Location) : Prop where
  leads : host.realLocation found.path = some place
  file : found.isFile = true → ∃ content, host.tree.entryAt place = some (.file content)
  directory : found.isFile = false → host.tree.entryAt place = some .directory

namespace Walk

variable {host : Host} {scope : Ignore.Scope} {way : List Location} {path root : Path}
  {location : Location} {entry : Entry} {found : WalkEntry}

/-- An entry on the way down from a path. -/
def IsBelow (host : Host) (path : Path) (found : WalkEntry) : Prop :=
  ∃ names place, (∀ name ∈ names, IsFileName name) ∧ found.path = path.descend names ∧
    found.Leads host place

theorem isBelow_self_of_file {content : List UInt8} (hpath : host.realLocation path = some location)
    (hentry : host.tree.entryAt location = some (.file content)) :
    IsBelow host path ⟨path, true⟩ :=
  ⟨[], location, fun _ h => absurd h List.not_mem_nil, rfl, hpath, fun _ => ⟨content, hentry⟩,
    fun h => nomatch h⟩

theorem isBelow_self_of_directory (hpath : host.realLocation path = some location)
    (hentry : host.tree.entryAt location = some .directory) : IsBelow host path ⟨path, false⟩ :=
  ⟨[], location, fun _ h => absurd h List.not_mem_nil, rfl, hpath, fun h => (nomatch h),
    fun _ => hentry⟩

theorem IsBelow.join {name : String} (hname : IsFileName name)
    (h : IsBelow host (path.join ⟨name⟩) found) : IsBelow host path found := by
  obtain ⟨names, place, hnames, hfound, hleads⟩ := h
  exact ⟨name :: names, place, List.forall_mem_cons.2 ⟨hname, hnames⟩, hfound, hleads⟩

/-- What the walk comes to at a place: a file alone, and a directory with what lies below its
children. -/
theorem mem_below_cases {depth : Nat}
    (h : found ∈ below host depth scope way path location entry) :
    (∃ content, entry = .file content ∧ found = ⟨path, true⟩) ∨
    entry = .directory ∧ (found = ⟨path, false⟩ ∨
      ∃ left child place reached, depth = left + 1 ∧ child ∈ host.tree.children location ∧
        target? host (location :: way) location (path.join ⟨child.1⟩) child.1 child.2 =
          some (place, reached) ∧
        found ∈ below host left (scope.enter host path) (location :: way)
          (path.join ⟨child.1⟩) place reached) := by
  cases entry with
  | file content =>
    rw [below] at h
    exact .inl ⟨content, rfl, List.mem_singleton.1 h⟩
  | link target =>
    rw [below] at h
    exact absurd h List.not_mem_nil
  | directory =>
    refine .inr ⟨rfl, ?_⟩
    cases depth with
    | zero =>
      rw [below] at h
      exact .inl (List.mem_singleton.1 h)
    | succ left =>
      rw [below] at h
      obtain hself | hbelow := List.mem_cons.1 h
      · exact .inl hself
      obtain ⟨child, hchild, hbelow⟩ := List.mem_flatMap.1 hbelow
      dsimp only at hbelow
      split at hbelow
      · exact absurd hbelow List.not_mem_nil
      · next place reached htarget =>
        split at hbelow
        · exact absurd hbelow List.not_mem_nil
        · exact .inr ⟨left, child, place, reached, rfl, hchild, htarget, hbelow⟩

/-- The walk goes on where the path of a child leads. -/
theorem realLocation_of_target? {name : String} {place : Location} {reached : Entry}
    (hproper : host.tree.IsProper) (hpath : host.realLocation path = some location)
    (hdirectory : host.tree.entryAt location = some .directory)
    (hchild : (name, entry) ∈ host.tree.children location)
    (htarget : target? host way location (path.join ⟨name⟩) name entry = some (place, reached)) :
    host.realLocation (path.join ⟨name⟩) = some place ∧
      host.tree.entryAt place = some reached := by
  obtain ⟨hname, hentry⟩ := hproper.of_mem_children hchild
  have hisdirectory : host.tree.isDirectory location = true := beq_iff_eq.2 hdirectory
  cases entry with
  | link target =>
    obtain ⟨next, hnext, hlast⟩ := Option.bind_eq_some_iff.1 htarget
    obtain ⟨lies, hlies, hlast⟩ := Option.bind_eq_some_iff.1 hlast
    split at hlast
    · cases hlast
    · obtain ⟨rfl, rfl⟩ := Prod.mk.inj (Option.some.inj hlast)
      exact ⟨hnext, hlies⟩
  | file | directory =>
    obtain ⟨rfl, rfl⟩ := Prod.mk.inj (Option.some.inj htarget)
    refine ⟨?_, hentry⟩
    exact FileTree.realLocation_join_name hpath hisdirectory hname hentry fun _ h => nomatch h

/-- What is found below a place is spelled from the path that leads there. -/
theorem isBelow_of_mem_below (hproper : host.tree.IsProper) {depth : Nat}
    (hpath : host.realLocation path = some location)
    (hentry : host.tree.entryAt location = some entry)
    (hfound : found ∈ below host depth scope way path location entry) :
    IsBelow host path found := by
  induction depth generalizing scope way path location entry with
  | zero =>
    obtain ⟨content, rfl, rfl⟩ | ⟨rfl, rfl | ⟨left, _, _, _, hdepth, -⟩⟩ := mem_below_cases hfound
    · exact isBelow_self_of_file hpath hentry
    · exact isBelow_self_of_directory hpath hentry
    · cases hdepth
  | succ depth ih =>
    obtain ⟨content, rfl, rfl⟩ | ⟨rfl, rfl | ⟨left, child, place, reached, hdepth, hchild, htarget,
      hbelow⟩⟩ := mem_below_cases hfound
    · exact isBelow_self_of_file hpath hentry
    · exact isBelow_self_of_directory hpath hentry
    -- the path and the place go on to the child together
    · obtain rfl := Nat.succ.inj hdepth
      obtain ⟨hnext, hreached⟩ := realLocation_of_target? hproper hpath hentry hchild htarget
      exact (ih hnext hreached hbelow).join (hproper.of_mem_children hchild).1

/-- Everything that a walk comes to lies below its root. -/
theorem isBelow_of_mem_entries (hproper : host.tree.IsProper) (hfound : found ∈ entries host root) :
    root.text ≠ "" ∧ IsBelow host root found := by
  rw [entries] at hfound
  split at hfound
  · exact absurd hfound List.not_mem_nil
  split at hfound
  · exact absurd hfound List.not_mem_nil
  next location hlocation =>
  split at hfound
  · exact absurd hfound List.not_mem_nil
  next entry hentry =>
  exact ⟨FileTree.text_ne_of_realLocation hlocation,
    isBelow_of_mem_below hproper hlocation hentry hfound⟩

end Walk

end Coverage
