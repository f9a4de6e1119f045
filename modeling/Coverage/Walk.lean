/-
# Walking a tree

A search is given a walk, and this is the one that the library has of its own.
`Walk.entries` lists what lies below a directory, itself included, as far as the
ignore rules let it. Symbolic links are followed; one that leads nowhere, or back to a
directory that the walk is in, is left out. The root is never ignored, and a
root that is a file gives itself. All files and directories of the tree can be read,
and nothing changes during the walk.

Below a link the walk may come through one real directory more than once, but
each link on the way adds a real directory that was not on it. So no way is
longer than the number of directories times the depth of the tree, and
`depthBound` is above that.
-/
import Coverage.Ignore.Level

namespace Coverage

/-- Something that a walk came to. -/
structure WalkEntry where
  /-- The path on which the walk came there, spelled from its root. -/
  path : Path
  /-- Whether it is a regular file, links followed. -/
  isFile : Bool
deriving DecidableEq, Repr

namespace Walk

/-- A length that no way of a walk reaches. -/
def depthBound (tree : FileTree) : Nat := (tree.entries.length + 2) * (tree.entries.length + 2)

/-- Where a name in a directory leads: to its own location, or through a link to
a place that is not a directory of the way. -/
def target? (host : Host) (way : List Location) (directory : Location) (path : Path) (name : String) :
    Entry → Option (Location × Entry)
  | .link _ => do
    let location ← host.realLocation path
    let entry ← host.tree.entryAt location
    if entry == .directory && way.contains location then none else some (location, entry)
  | entry => some (directory ++ [name], entry)

/-- What lies at a place and below it. The way holds the directories that the
walk is in, innermost first. -/
def below (host : Host) : Nat → Ignore.Scope → List Location → Path → Location → Entry → List WalkEntry
  | _, _, _, path, _, .file _ => [⟨path, true⟩]
  | _, _, _, _, _, .link _ => []
  | 0, _, _, path, _, .directory => [⟨path, false⟩]
  | depth + 1, scope, way, path, location, .directory =>
    let scope := scope.enter host path
    let way := location :: way
    ⟨path, false⟩ :: (host.tree.children location).flatMap fun child =>
      let childPath := path.join ⟨child.1⟩
      match target? host way location childPath child.1 child.2 with
      | none => []
      | some (place, entry) =>
        if scope.verdict? childPath (entry == .directory) = some .ignored then []
        else below host depth scope way childPath place entry

/-- Everything that a walk from a root comes to. A single dash is no file name
here but stands for the standard input, where no file lies. -/
def entries (host : Host) (root : Path) : List WalkEntry :=
  if root.components == [.normal "-"] then []
  else
    match host.realLocation root with
    | none => []
    | some location =>
      match host.tree.entryAt location with
      | none => []
      | some entry =>
        below host (depthBound host.tree) (.start host location) [] root location entry

end Walk

end Coverage
