/-
# Recorded data

What was recorded of each source file, apart for every context. A file is
credited to the plug-in that recorded something for it first, and is known by
the first spelling of its name.
-/
import Coverage.Line
import Coverage.Path.Basic

namespace Coverage

/-- The lines and arcs of one file in one context. -/
structure Measured where
  lines : LineSet
  arcs : ArcSet
deriving DecidableEq, Repr

/-- Nothing recorded. -/
instance : EmptyCollection Measured := ⟨⟨∅, ∅⟩⟩

/-- What was recorded of one file. -/
structure FileData where
  /-- The display name of the plug-in that is credited with the file. -/
  plugin : String
  /-- What was recorded, by context label. The empty label is for no context. -/
  contexts : SortedMap String Measured
deriving DecidableEq, Repr

/-- What was recorded, by source file. -/
structure CoverageData where
  files : SortedMap Path FileData
deriving DecidableEq, Repr

namespace CoverageData

/-- Nothing recorded. -/
instance : EmptyCollection CoverageData := ⟨⟨∅⟩⟩

instance : Inhabited CoverageData := ⟨∅⟩

/-- The files with recorded data, in order. -/
def measuredFiles (data : CoverageData) : List Path := data.files.keys

/-- What was recorded of a file. -/
def file? (data : CoverageData) (source : Path) : Option FileData := data.files.get? source

/-- The plug-in that is credited with a file. -/
def tracer? (data : CoverageData) (source : Path) : Option String :=
  (data.file? source).map (·.plugin)

/-- What was recorded of a file, one part for each context. -/
def parts (data : CoverageData) (source : Path) : List Measured :=
  ((data.file? source).map (·.contexts.values)).getD []

/-- The lines of a file that were recorded in any context. -/
def lines (data : CoverageData) (source : Path) : LineSet :=
  (data.parts source).foldr (fun part lines => part.lines ∪ lines) ∅

/-- The arcs of a file that were recorded in any context. -/
def arcs (data : CoverageData) (source : Path) : ArcSet :=
  (data.parts source).foldr (fun part arcs => part.arcs ∪ arcs) ∅

/-- The labels of the contexts in which something was recorded of a file. -/
def contexts (data : CoverageData) (source : Path) : List String :=
  ((data.file? source).map (·.contexts.keys)).getD []

/-- What was recorded of a file in one context. -/
def measured? (data : CoverageData) (source : Path) (context : String) : Option Measured :=
  (data.file? source).bind (·.contexts.get? context)

/-- Change what was recorded of a file in one context. The plug-in is credited
when the file is new. -/
def record (data : CoverageData) (source : Path) (plugin context : String)
    (change : Measured → Measured) : CoverageData :=
  ⟨data.files.alter source fun file =>
    let file := file.getD ⟨plugin, ∅⟩
    { file with contexts := file.contexts.alter context fun part => change (part.getD ∅) }⟩

/-- Record lines of a file. -/
def addLines (data : CoverageData) (source : Path) (plugin context : String) (lines : LineSet) :
    CoverageData :=
  data.record source plugin context fun part => { part with lines := part.lines ∪ lines }

/-- Record an arc of a file. -/
def addArc (data : CoverageData) (source : Path) (plugin context : String) (arc : Arc) :
    CoverageData :=
  data.record source plugin context fun part => { part with arcs := insert arc part.arcs }

end CoverageData

end Coverage
