/-
# Executable files of a tree

A plug-in may list the files of a tree that it could have traced. The search takes
what a walk of the tree comes to, keeps the regular files whose path below the root
is included and not excluded, and gives their canonical names in the order of paths.
One file that is reached on several ways is listed several times.

The search does not walk itself, and it does not read patterns. Both are given to it:
a walk says for a root what it came to, and a `GlobLibrary` reads patterns and asks
them about paths. `findOn` is the search with the walk of `Coverage.Walk` and the
patterns of `Coverage.Glob`.
-/
import Coverage.Failure
import Coverage.Glob.Match
import Coverage.SortedSet
import Coverage.Walk

namespace Coverage

/-- How patterns are read, put together, and asked about a path. The patterns and the
sets of them are the library's own. -/
structure GlobLibrary (Pattern PatternSet : Type) where
  /-- Read one pattern. -/
  read : String → Except Failure Pattern
  /-- Put patterns together into a set. -/
  build : List Pattern → Except Failure PatternSet
  /-- Whether a set matches a path. -/
  isMatch : PatternSet → Path → Bool

/-- A search for executable files. -/
structure ExecutableFiles where
  /-- The directory to search. -/
  root : Path
  /-- The patterns of the files to list; without any, all files are listed. -/
  included : List String
  /-- The patterns of the files to leave out. -/
  excluded : List String
deriving DecidableEq, Repr

namespace ExecutableFiles

/-- A search that lists all files below a directory. -/
def ofRoot (root : Path) : ExecutableFiles := ⟨root, [], []⟩

/-- Add patterns of files to list. -/
def including (search : ExecutableFiles) (patterns : List String) : ExecutableFiles :=
  { search with included := search.included ++ patterns }

/-- Add patterns of files to leave out. -/
def excluding (search : ExecutableFiles) (patterns : List String) : ExecutableFiles :=
  { search with excluded := search.excluded ++ patterns }

/-- A path as it is seen from the root of a search; a path that is not below the root
stays as it is. -/
def relativePath (search : ExecutableFiles) (p : Path) : Path := (search.root.below? p).getD p

section Library

variable {Pattern PatternSet : Type}

/-- The spelling of a pattern with separators for backslashes. -/
def withSeparators (pattern : String) : String :=
  pattern.map fun c => if c = '\\' then '/' else c

/-- Read a search pattern, in which a backslash stands for a separator. -/
def compile (library : GlobLibrary Pattern PatternSet) (pattern : String) :
    Except Failure Pattern :=
  match library.read (withSeparators pattern) with
  | .ok glob => .ok glob
  | .error cause => .error (.invalidPattern pattern cause)

/-- Read search patterns in order and put them together. The first one with a fault is
reported. -/
def compileSet (library : GlobLibrary Pattern PatternSet) (patterns : List String) :
    Except Failure PatternSet := do
  let globs ← patterns.mapM (compile library)
  library.build globs

/-- Whether an entry of a walk is to be listed. The set of the including patterns is not
asked when there are none. -/
def selects (library : GlobLibrary Pattern PatternSet) (search : ExecutableFiles)
    (included excluded : PatternSet) (found : WalkEntry) : Bool :=
  found.isFile && (search.included.isEmpty ||
    library.isMatch included (search.relativePath found.path)) &&
      !library.isMatch excluded (search.relativePath found.path)

/-- List the files of a search: the canonical names of what is to be listed of a walk. A
fault of a pattern is reported, one of an including pattern before one of an excluding
pattern. -/
def find (library : GlobLibrary Pattern PatternSet) (walk : Path → List WalkEntry) (host : Host)
    (search : ExecutableFiles) : Except Failure (List Path) := do
  let included ← compileSet library search.included
  let excluded ← compileSet library search.excluded
  let files := (walk search.root).filter (search.selects library included excluded)
  return sortBy compare (files.map fun found => host.canonical found.path)

end Library

end ExecutableFiles

/-! ## The search with the patterns and the walk of this library -/

/-- Patterns of file searches: every wildcard may match a separator. -/
def Glob.searchDialect : Glob.Dialect := ⟨false, true, false⟩

/-- The patterns of `Coverage.Glob`; a set of them is their list. -/
def Glob.library : GlobLibrary Glob (List Glob) where
  read glob := (Glob.read Glob.searchDialect glob).mapError (.globFault glob)
  build globs := .ok globs
  isMatch globs p := globs.any (·.matchesPath p)

/-- List the files of a search on a host. -/
def ExecutableFiles.findOn (host : Host) (search : ExecutableFiles) : Except Failure (List Path) :=
  search.find Glob.library (Walk.entries host) host

end Coverage
