/-
# A tree of files

A `FileTree` lists what lies at each location below the root. A location is the
list of names that lead to it; the root itself is the empty list and is always
a directory. A symbolic link is kept as the text it holds, which is looked at
only when a name is resolved.

`FileTree.place` puts an entry at a location and makes the directories above
it.
-/
import Coverage.Path.Basic

namespace Coverage

/-- What can lie at a location. -/
inductive Entry where
  | file (content : List UInt8)
  | directory
  | link (target : Path)
deriving DecidableEq, Repr

/-- The names that lead from the root to a place. -/
abbrev Location := List String

/-- The path that spells a location. -/
def Location.path (location : Location) : Path := Path.ofNames location

/-- A tree of files: the entries below the root, in the order they were made. -/
structure FileTree where
  entries : List (Location × Entry)
deriving DecidableEq, Repr

namespace FileTree

/-- A tree with nothing below the root. -/
instance : EmptyCollection FileTree := ⟨⟨[]⟩⟩

instance : Inhabited FileTree := ⟨∅⟩

/-- What lies at a location. The root is a directory. -/
def entryAt (tree : FileTree) (location : Location) : Option Entry :=
  if location.isEmpty then some .directory
  else (tree.entries.find? fun entry => entry.1 = location).map (·.2)

/-- Whether a directory, and not a link to one, lies at a location. -/
def isDirectory (tree : FileTree) (location : Location) : Bool :=
  tree.entryAt location == some .directory

/-- Make a directory at a location, unless something lies there. -/
def makeDirectory (tree : FileTree) (location : Location) : FileTree :=
  if (tree.entryAt location).isSome then tree else ⟨tree.entries ++ [(location, .directory)]⟩

/-- The locations above a location, from the root down. -/
def above (location : Location) : List Location :=
  (List.range location.length).map fun depth => location.take depth

/-- Put an entry at a location, below directories that are made where they are
missing. A file or a link takes the place of what lay there before. -/
def place (tree : FileTree) (location : Location) (entry : Entry) : FileTree :=
  let tree := (above location).foldl makeDirectory tree
  match entry with
  | .directory => tree.makeDirectory location
  | entry => ⟨tree.entries.filter (·.1 ≠ location) ++ [(location, entry)]⟩

/-- The names in a directory with what lies there, in the order they were made. -/
def children (tree : FileTree) (location : Location) : List (String × Entry) :=
  tree.entries.filterMap fun entry =>
    match entry.1.getLast? with
    | some name => if entry.1.dropLast = location then some (name, entry.2) else none
    | none => none

end FileTree

end Coverage
