/-
# Ignore rules of nested directories

A walk collects the rules of every directory it enters. The file `.ignore` of
a directory always counts. The files `.gitignore` and `.git/info/exclude` count
only inside a repository, which is a tree that holds `.git` or `.jj`, and those
above its top do not. Rules of an inner directory go before those of an outer
one, and all `.ignore` rules go before all others.

The directories above the root of a walk take part as well. They see a path
by its real name. Rules that a user keeps for all repositories at once are not
read; a host is taken to have none.
-/
import Coverage.Ignore.Rule
import Coverage.Host

namespace Coverage

namespace Ignore

/-- The rules that one directory brings in. -/
structure Level where
  directory : Path
  /-- The rules of `.ignore`. -/
  plain : RuleSet
  /-- The rules of `.gitignore`. -/
  versioned : RuleSet
  /-- The rules of `info/exclude` in the repository's own directory. -/
  excluded : RuleSet
  /-- Whether the directory is the top of a repository. -/
  hasRepository : Bool
deriving Repr

/-- The first line of a file. -/
def firstLine? (host : Host) (p : Path) : Option String :=
  match host.content? p with
  | none => none
  | some [] => none
  | some content => (RuleSet.byteLines content).head?.bind fun line => String.fromUTF8? ⟨line.toArray⟩

/-- The directory with the shared settings of the repository at `directory`. A
file `.git` names the repository's own directory, and the file `commondir` in
that one names the shared directory. -/
def repositoryDirectory? (host : Host) (directory : Path) : Option Path :=
  let git := directory.join ⟨".git"⟩
  match host.entryAt git with
  | some (.file _) => do
    let line ← firstLine? host git
    let own ← Text.afterStart? "gitdir: ".toList line.toList
    let own : Path := ⟨String.ofList own⟩
    let shared ← firstLine? host (own.join ⟨"commondir"⟩)
    return if shared.toList.head? = some '.' then own.join ⟨shared⟩ else ⟨shared⟩
  | _ => some git

/-- The rules of an ignore file; none when it is missing. -/
def rulesAt (host : Host) (base file : Path) : RuleSet :=
  match host.content? file with
  | some content => RuleSet.read base content
  | none => ∅

/-- The rules that a directory brings in. -/
def levelAt (host : Host) (directory : Path) : Level where
  directory := directory
  plain := rulesAt host directory (directory.join ⟨".ignore"⟩)
  versioned := rulesAt host directory (directory.join ⟨".gitignore"⟩)
  excluded :=
    match repositoryDirectory? host directory with
    | some repository => rulesAt host directory (repository.join ⟨"info/exclude"⟩)
    | none => ∅
  hasRepository := host.holds (directory.join ⟨".git"⟩) || host.holds (directory.join ⟨".jj"⟩)

/-- The levels of a walk. -/
structure Scope where
  /-- The directories that were entered, innermost first. -/
  entered : List Level
  /-- The directories above the root, nearest first. -/
  above : List Level
  /-- The real name of the root, when something lies above it. -/
  anchor : Option Path
deriving Repr

namespace Scope

/-- The levels of a walk that starts in a directory with the given real location. -/
def start (host : Host) (root : Location) : Scope where
  entered := []
  above := ((FileTree.above root).map fun location => levelAt host location.path).reverse
  anchor := if root.isEmpty then none else some root.path

/-- The levels after entering a directory. -/
def enter (host : Host) (directory : Path) (scope : Scope) : Scope :=
  { scope with entered := levelAt host directory :: scope.entered }

/-- The first verdict that the chosen rules of the levels give. -/
def firstVerdict? (choose : Level → RuleSet) (p : Path) (isDirectory : Bool) (levels : List Level) :
    Option Verdict :=
  levels.findSome? fun level => (choose level).verdict? p isDirectory

/-- The levels up to the top of the innermost repository, that one included. -/
def inRepository : List Level → List Level
  | [] => []
  | level :: outer => if level.hasRepository then [level] else level :: inRepository outer

/-- The name of a path for the levels above the root. -/
def nameAbove (scope : Scope) (anchor p : Path) : Path :=
  match scope.entered.getLast? with
  | none => anchor.join p
  | some root =>
    if root.directory.components == [.current] then anchor.join p
    else
      let base := RuleSet.withoutDot root.directory.text.toList
      let rest := Text.withoutStart base p.text.toList
      anchor.join ⟨String.ofList (Text.withoutStart ['/'] rest)⟩

/-- What the chosen rules say about a path, level by level from the inside out. -/
def verdictBy? (scope : Scope) (choose : Level → RuleSet) (entered above : List Level) (p : Path)
    (isDirectory : Bool) : Option Verdict :=
  (firstVerdict? choose p isDirectory entered).or
    (match scope.anchor with
    | some anchor => firstVerdict? choose (scope.nameAbove anchor p) isDirectory above
    | none => none)

/-- What the rules of all levels say about a path. -/
def verdict? (scope : Scope) (p : Path) (isDirectory : Bool) : Option Verdict :=
  let p : Path := ⟨String.ofList (RuleSet.withoutDot p.text.toList)⟩
  let inside := (scope.entered ++ scope.above).any (·.hasRepository)
  let entered := if inside then inRepository scope.entered else []
  let above :=
    if inside && !scope.entered.any (·.hasRepository) then inRepository scope.above else []
  (scope.verdictBy? (·.plain) scope.entered scope.above p isDirectory).or
    ((scope.verdictBy? (·.versioned) entered above p isDirectory).or
      (scope.verdictBy? (·.excluded) entered above p isDirectory))

end Scope

end Ignore

end Coverage
