/-
# Counts

The counts behind a coverage percentage. Counts of several files are added up,
and the percentage follows from the sums.
-/

namespace Coverage

/-- The counts of some files. -/
structure Numbers where
  files : Nat
  statements : Nat
  excluded : Nat
  missing : Nat
  branches : Nat
  partialBranches : Nat
  missingBranches : Nat
deriving DecidableEq, Repr

namespace Numbers

/-- The counts of no file. -/
def zero : Numbers := ⟨0, 0, 0, 0, 0, 0, 0⟩

instance : Inhabited Numbers := ⟨zero⟩

/-- The counts of two lots of files together. -/
def add (m n : Numbers) : Numbers where
  files := m.files + n.files
  statements := m.statements + n.statements
  excluded := m.excluded + n.excluded
  missing := m.missing + n.missing
  branches := m.branches + n.branches
  partialBranches := m.partialBranches + n.partialBranches
  missingBranches := m.missingBranches + n.missingBranches

instance : Add Numbers := ⟨add⟩

/-- The statements that ran. -/
def executed (n : Numbers) : Nat := n.statements - n.missing

/-- The branches that were taken. -/
def executedBranches (n : Numbers) : Nat := n.branches - n.missingBranches

/-- What ran, of all that could have run. -/
def ratio (n : Numbers) : Nat × Nat :=
  (n.executed + n.executedBranches, n.statements + n.branches)

/-- The nearest float to a number, of two equally near ones the even one. A
number of more than 53 bits loses its last bits to rounding. -/
def nearestFloat (n : Nat) : Float :=
  let lost := n.log2 - 52
  if lost = 0 then n.toUInt64.toFloat
  else
    let kept := n >>> lost
    let rest := n % Nat.pow 2 lost
    let half := Nat.pow 2 (lost - 1)
    let up := half < rest || (rest == half && kept % 2 == 1)
    ((if up then kept + 1 else kept).toUInt64.toFloat).scaleB lost

/-- The percentage that ran; all of it when nothing could have run. -/
def percentCovered (n : Numbers) : Float :=
  let (executed, possible) := n.ratio
  if possible = 0 then 100.0 else nearestFloat executed / nearestFloat possible * 100.0

end Numbers

end Coverage
