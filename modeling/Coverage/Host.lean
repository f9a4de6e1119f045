/-
# Names of files on a host

A host has a tree of files and a working directory. `Host.canonical` is the one
name under which a file is known: its real location where it exists, and the
lexical normal form of its absolute path where it does not.

The working directory of a host can always be told, and so every path has an
absolute form. A process whose working directory is gone or cannot be read is no
host in this sense; it would keep a relative path relative where it leads nowhere.

A `RelativeDirectory` shortens names for display. A path below its root loses
the root, and every other path stays as it was spelled.
-/
import Coverage.FileTree.Resolve

namespace Coverage

/-- A tree of files, seen from a working directory. -/
structure Host where
  tree : FileTree
  workingDirectory : Location
deriving DecidableEq, Repr

namespace Host

/-- The real location that a path leads to. -/
def realLocation (host : Host) (p : Path) : Option Location :=
  host.tree.realLocation host.workingDirectory p

/-- What a path leads to, links followed. -/
def entryAt (host : Host) (p : Path) : Option Entry :=
  (host.realLocation p).bind host.tree.entryAt

/-- Whether a path leads to something. -/
def holds (host : Host) (p : Path) : Bool := (host.entryAt p).isSome

/-- The content of the file that a path leads to. -/
def content? (host : Host) (p : Path) : Option (List UInt8) :=
  match host.entryAt p with
  | some (.file content) => some content
  | _ => none

/-- The absolute path with the same meaning, nothing resolved. It takes that the working
directory can be told. -/
def absolute (host : Host) (p : Path) : Path := host.workingDirectory.path.join p

/-- The name under which a file is known. -/
def canonical (host : Host) (p : Path) : Path :=
  match host.realLocation p with
  | some location => location.path
  | none => (host.absolute p).normal

end Host

/-- A directory against which names are shortened for display. -/
structure RelativeDirectory where
  root : Path
deriving DecidableEq, Repr

namespace RelativeDirectory

/-- The directory that a path names on a host. -/
def ofPath (host : Host) (p : Path) : RelativeDirectory := ⟨host.canonical p⟩

/-- A path as seen from the directory. The root itself, and what does not lie
below it, stays as spelled. -/
def relativeName (directory : RelativeDirectory) (p : Path) : Path :=
  match directory.root.below? p with
  | some rest => if rest.text.isEmpty then p else rest
  | none => p

end RelativeDirectory

/-- A path as seen from the working directory. -/
def Host.relativeName (host : Host) (p : Path) : Path :=
  (RelativeDirectory.ofPath host host.workingDirectory.path).relativeName p

end Coverage
