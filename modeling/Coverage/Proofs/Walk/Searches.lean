/-
# What a search for executable files lists

A search is given a walk and a library of patterns, and little is taken for granted of them: a
set of patterns matches what one of its patterns matches (`GlobLibrary.MatchesAny`), and what
the walk takes for a regular file leads to one (`Host.FilesResolve`). The patterns are asked
only whether any of them matches, so they count as two sets: neither their order nor
repetitions nor the calls that gave them show in the result (`SamePatterns.selected_eq`). What
is admitted is listed under canonical names, one for each entry of the walk, also where links
lead several entries to one file. Canonical names that compare equal are equal, so the
ascending list is determined, and the list of fewer entries is a part of the list of more
(`selected_sublist`).

The walk of `Coverage.Walk` and the patterns of `Coverage.Glob` are such a walk and such a
library (`Walk.filesResolve_entries`, `Glob.matchesAny_library`).
-/
import Coverage.ExecutableFiles
import Coverage.Proofs.Host.Canonical
import Coverage.Proofs.Order.Sorting
import Coverage.Proofs.Path.Descent
import Coverage.Proofs.Walk.Entries

namespace Coverage

variable {Pattern PatternSet : Type} {library : GlobLibrary Pattern PatternSet}
  {hits : Pattern → Path → Bool} {walk : Path → List WalkEntry} {host : Host}

/-- A set of patterns matches a path just when one of the patterns hits it. -/
def GlobLibrary.MatchesAny (library : GlobLibrary Pattern PatternSet)
    (hits : Pattern → Path → Bool) : Prop :=
  ∀ globs set, library.build globs = .ok set →
    ∀ p, library.isMatch set p = globs.any (hits · p)

/-- What a walk of the host takes for a regular file leads to one. -/
def Host.FilesResolve (host : Host) (walk : Path → List WalkEntry) : Prop :=
  ∀ root, ∀ found ∈ walk root, found.isFile = true → ∃ place content,
    host.realLocation found.path = some place ∧ host.tree.entryAt place = some (.file content)

namespace ExecutableFiles

variable {search other : ExecutableFiles} {found : WalkEntry} {pattern : String}
  {patterns : List String}

/-! ## Patterns -/

/-- A text that can be read as a pattern. -/
def IsPattern (library : GlobLibrary Pattern PatternSet) (pattern : String) : Prop :=
  ∃ glob, compile library pattern = .ok glob

/-- Texts that can be read as patterns and put together. -/
def IsPatternSet (library : GlobLibrary Pattern PatternSet) (patterns : List String) : Prop :=
  ∃ set, compileSet library patterns = .ok set

instance (result : Except Failure Pattern) (failure : Failure) :
    Decidable (result = .error failure) :=
  match result with
  | .ok _ => .isFalse nofun
  | .error _ => decidable_of_iff _ (Except.error.injEq _ failure).symm.to_iff

instance (library : GlobLibrary Pattern PatternSet) : DecidablePred (IsPattern library) :=
  fun pattern =>
    match h : compile library pattern with
    | .ok glob => .isTrue ⟨glob, h⟩
    | .error _ => .isFalse fun ⟨_, hglob⟩ => nomatch h.symm.trans hglob

instance (library : GlobLibrary Pattern PatternSet) : DecidablePred (IsPatternSet library) :=
  fun patterns =>
    match h : compileSet library patterns with
    | .ok set => .isTrue ⟨set, h⟩
    | .error _ => .isFalse fun ⟨_, hset⟩ => nomatch h.symm.trans hset

/-- Whether the pattern that is read from a text hits a path. -/
def textHits (library : GlobLibrary Pattern PatternSet) (hits : Pattern → Path → Bool)
    (pattern : String) (p : Path) : Bool :=
  match compile library pattern with
  | .ok glob => hits glob p
  | .error _ => false

/-- Patterns are read one by one, and asked one by one. -/
theorem any_of_mapM_compile {globs : List Pattern}
    (h : patterns.mapM (compile library) = .ok globs) (p : Path) :
    globs.any (hits · p) = patterns.any (textHits library hits · p) := by
  induction patterns generalizing globs with
  | nil =>
    cases h
    rfl
  | cons pattern patterns ih =>
    rw [List.mapM_cons] at h
    cases hglob : compile library pattern with
    | error failure =>
      rw [hglob] at h
      cases h
    | ok glob =>
      cases hrest : patterns.mapM (compile library) with
      | error failure =>
        rw [hglob, hrest] at h
        cases h
      | ok rest =>
        rw [hglob, hrest] at h
        cases h
        rw [List.any_cons, List.any_cons, ih hrest, textHits, hglob]

/-- A set of patterns matches what one of the texts hits from which it was read. -/
theorem isMatch_of_compileSet (hlibrary : library.MatchesAny hits) {set : PatternSet}
    (h : compileSet library patterns = .ok set) (p : Path) :
    library.isMatch set p = patterns.any (textHits library hits · p) := by
  rw [compileSet] at h
  cases hglobs : patterns.mapM (compile library) with
  | error failure =>
    rw [hglobs] at h
    cases h
  | ok globs =>
    rw [hglobs] at h
    rw [hlibrary globs set h, any_of_mapM_compile hglobs]

/-- Patterns that can be read one by one can be read together. -/
theorem exists_mapM_compile (h : ∀ pattern ∈ patterns, IsPattern library pattern) :
    ∃ globs, patterns.mapM (compile library) = .ok globs := by
  induction patterns with
  | nil => exact ⟨[], rfl⟩
  | cons pattern patterns ih =>
    obtain ⟨⟨glob, hglob⟩, hrest⟩ := List.forall_mem_cons.1 h
    obtain ⟨globs, hglobs⟩ := ih hrest
    refine ⟨glob :: globs, ?_⟩
    rw [List.mapM_cons, hglob, hglobs]
    rfl

/-- The first text that cannot be read is reported, with its fault as the cause. -/
theorem compileSet_of_fault {before after : List String} {bad : String} {cause : Failure}
    (hbefore : ∀ pattern ∈ before, IsPattern library pattern)
    (h : library.read (withSeparators bad) = .error cause) :
    compileSet library (before ++ bad :: after) = .error (.invalidPattern bad cause) := by
  obtain ⟨globs, hglobs⟩ := exists_mapM_compile hbefore
  have hbad : compile library bad = .error (.invalidPattern bad cause) := by rw [compile, h]
  rw [compileSet, List.mapM_append, hglobs, List.mapM_cons, hbad]
  rfl

/-! ## What is listed -/

/-- All patterns that a search was given can be read and put together. -/
def Compiles (library : GlobLibrary Pattern PatternSet) (search : ExecutableFiles) : Prop :=
  IsPatternSet library search.included ∧ IsPatternSet library search.excluded

instance (library : GlobLibrary Pattern PatternSet) : DecidablePred (Compiles library) :=
  fun _ => inferInstanceAs (Decidable (_ ∧ _))

/-- A regular file that is included, as all files are when nothing is said of it, and that is
not excluded. -/
def Lists (library : GlobLibrary Pattern PatternSet) (hits : Pattern → Path → Bool)
    (search : ExecutableFiles) (found : WalkEntry) : Prop :=
  found.isFile = true ∧
  (search.included = [] ∨ ∃ pattern ∈ search.included,
    textHits library hits pattern (search.relativePath found.path) = true) ∧
  ¬ ∃ pattern ∈ search.excluded,
    textHits library hits pattern (search.relativePath found.path) = true

instance (library : GlobLibrary Pattern PatternSet) (hits : Pattern → Path → Bool)
    (search : ExecutableFiles) : DecidablePred (Lists library hits search) :=
  fun _ => inferInstanceAs (Decidable (_ ∧ (_ ∨ _) ∧ ¬ _))

/-- The canonical names of the entries that are listed, in order. -/
def selected (library : GlobLibrary Pattern PatternSet) (hits : Pattern → Path → Bool)
    (walk : Path → List WalkEntry) (host : Host) (search : ExecutableFiles) : List Path :=
  sortBy compare (((walk search.root).filter (search.Lists library hits ·)).map
    fun found => host.canonical found.path)

/-- The sets of patterns select what the patterns one by one list. -/
theorem selects_eq (hlibrary : library.MatchesAny hits) {included excluded : PatternSet}
    (hincluded : compileSet library search.included = .ok included)
    (hexcluded : compileSet library search.excluded = .ok excluded) (found : WalkEntry) :
    search.selects library included excluded found =
      decide (search.Lists library hits found) := by
  rw [Bool.eq_iff_iff, decide_eq_true_iff, Lists, selects,
    isMatch_of_compileSet hlibrary hincluded, isMatch_of_compileSet hlibrary hexcluded,
    Bool.and_eq_true, Bool.and_eq_true, Bool.or_eq_true, List.isEmpty_iff, Bool.not_eq_true',
    ← Bool.not_eq_true, List.any_eq_true, List.any_eq_true, and_assoc]

/-- A search whose patterns compile does not fail. -/
theorem find_of_compiles (hlibrary : library.MatchesAny hits) (h : search.Compiles library) :
    search.find library walk host = .ok (search.selected library hits walk host) := by
  obtain ⟨⟨included, hincluded⟩, excluded, hexcluded⟩ := h
  rw [find, hincluded, hexcluded, selected,
    ← List.filter_congr fun found _ => selects_eq hlibrary hincluded hexcluded found]
  rfl

/-! ## Canonical names in order -/

section Selected

variable (hwalk : host.FilesResolve walk) (hreal : host.tree.IsReal host.workingDirectory)
include hwalk hreal

/-- A listed file is the path of a real place, at which a regular file lies. -/
theorem exists_place_of_mem_selected {file : Path}
    (hfile : file ∈ search.selected library hits walk host) :
    ∃ place content, host.tree.IsReal place ∧ host.tree.entryAt place = some (.file content) ∧
      file = place.path := by
  rw [selected, (sortBy_perm _ _).mem_iff, List.mem_map] at hfile
  obtain ⟨found, hfound, rfl⟩ := hfile
  obtain ⟨hfound, hlists⟩ := List.mem_filter.1 hfound
  obtain ⟨place, content, hleads, hcontent⟩ := hwalk _ found hfound (of_decide_eq_true hlists).1
  exact ⟨place, content, FileTree.isReal_of_realLocation hreal hleads, hcontent,
    Host.canonical_of_realLocation hleads⟩

/-- Listed files that compare equal are equal. -/
theorem eq_of_compare_selected {file twin : Path}
    (hfile : file ∈ search.selected library hits walk host)
    (htwin : twin ∈ search.selected library hits walk host) (h : compare file twin = .eq) :
    file = twin := by
  obtain ⟨place, -, hplace, -, rfl⟩ := exists_place_of_mem_selected hwalk hreal hfile
  obtain ⟨other, -, hother, -, rfl⟩ := exists_place_of_mem_selected hwalk hreal htwin
  have hcomponents : place.path.components = other.path.components :=
    Std.LawfulEqOrd.eq_of_compare (α := List Component) h
  rw [Location.path, Location.path, Path.components_ofNames hplace.isFileName,
    Path.components_ofNames hother.isFileName, List.cons.injEq] at hcomponents
  have hnames : place = other :=
    List.map_injective_iff.2 (fun _ _ => Component.normal.inj) hcomponents.2
  rw [hnames]

/-- The files of fewer entries are a part of the files of more. -/
theorem selected_sublist (hroot : search.root = other.root)
    (h : ∀ found, search.Lists library hits found → other.Lists library hits found) :
    (search.selected library hits walk host).Sublist (other.selected library hits walk host) := by
  have hentries : ((walk search.root).filter (search.Lists library hits ·)).Sublist
      ((walk other.root).filter (other.Lists library hits ·)) := by
    rw [hroot]
    refine List.monotone_filter_right _ fun found hfound => ?_
    exact decide_eq_true (h found (of_decide_eq_true hfound))
  apply IsAscending.sublist_of_subperm (isAscending_sortBy _) (isAscending_sortBy _)
  · have hsome := (hentries.map fun found => host.canonical found.path).subperm
    exact ((sortBy_perm _ _).subperm.trans hsome).trans (sortBy_perm _ _).symm.subperm
  · exact fun file hfile twin htwin => eq_of_compare_selected hwalk hreal hfile htwin

end Selected

/-! ## Patterns as sets -/

/-- Two searches of one root that were given the same patterns, in any order and any number of
times. -/
structure SamePatterns (search other : ExecutableFiles) : Prop where
  root : search.root = other.root
  included : ∀ pattern, pattern ∈ search.included ↔ pattern ∈ other.included
  excluded : ∀ pattern, pattern ∈ search.excluded ↔ pattern ∈ other.excluded

namespace SamePatterns

theorem symm (h : SamePatterns search other) : SamePatterns other search where
  root := h.root.symm
  included pattern := (h.included pattern).symm
  excluded pattern := (h.excluded pattern).symm

theorem lists (h : SamePatterns search other) (hlists : search.Lists library hits found) :
    other.Lists library hits found := by
  obtain ⟨hfile, hincluded, hexcluded⟩ := hlists
  have hrelative : search.relativePath found.path = other.relativePath found.path := by
    rw [relativePath, relativePath, h.root]
  rw [hrelative] at hincluded hexcluded
  refine ⟨hfile, hincluded.imp (fun hnone => ?_) ?_, ?_⟩
  · rw [List.eq_nil_iff_forall_not_mem] at hnone ⊢
    exact fun pattern hpattern => hnone pattern ((h.included pattern).2 hpattern)
  · rintro ⟨pattern, hpattern, hhits⟩
    exact ⟨pattern, (h.included pattern).1 hpattern, hhits⟩
  · rintro ⟨pattern, hpattern, hhits⟩
    exact hexcluded ⟨pattern, (h.excluded pattern).2 hpattern, hhits⟩

/-- Only which patterns there are decides what is listed. -/
theorem selected_eq (h : SamePatterns search other) :
    search.selected library hits walk host = other.selected library hits walk host := by
  have hlists (found : WalkEntry) :
      decide (search.Lists library hits found) = decide (other.Lists library hits found) :=
    decide_eq_decide.2 ⟨h.lists, h.symm.lists⟩
  rw [selected, selected, h.root, List.filter_congr fun found _ => hlists found]

end SamePatterns

/-- More patterns to leave out leave out more. -/
theorem lists_of_excluding (h : (search.excluding patterns).Lists library hits found) :
    search.Lists library hits found := by
  obtain ⟨hfile, hincluded, hexcluded⟩ := h
  refine ⟨hfile, hincluded, ?_⟩
  rintro ⟨pattern, hpattern, hhits⟩
  exact hexcluded ⟨pattern, List.mem_append_left _ hpattern, hhits⟩

/-- More patterns to list list more, unless everything was listed. -/
theorem Lists.including (h : search.Lists library hits found) (hsome : search.included ≠ []) :
    (search.including patterns).Lists library hits found := by
  obtain ⟨hfile, hincluded, hexcluded⟩ := h
  obtain ⟨pattern, hpattern, hhits⟩ := hincluded.resolve_left hsome
  exact ⟨hfile, .inr ⟨pattern, List.mem_append_left _ hpattern, hhits⟩, hexcluded⟩

/-! ## Calls that give patterns -/

/-- A call that adds patterns to a search. -/
inductive PatternCall where
  | including (patterns : List String)
  | excluding (patterns : List String)

namespace PatternCall

/-- The search after a call. -/
def apply (search : ExecutableFiles) : PatternCall → ExecutableFiles
  | .including patterns => search.including patterns
  | .excluding patterns => search.excluding patterns

/-- The patterns of files to list in a call. -/
def included : PatternCall → List String
  | .including patterns => patterns
  | .excluding _ => []

/-- The patterns of files to leave out in a call. -/
def excluded : PatternCall → List String
  | .including _ => []
  | .excluding patterns => patterns

end PatternCall

/-- The search that calls make of a root. -/
def ofCalls (root : Path) (calls : List PatternCall) : ExecutableFiles :=
  calls.foldl PatternCall.apply (ofRoot root)

/-- The patterns of all calls are kept, one list after the other. -/
theorem foldl_apply (search : ExecutableFiles) (calls : List PatternCall) :
    calls.foldl PatternCall.apply search =
      ⟨search.root, search.included ++ calls.flatMap (·.included),
        search.excluded ++ calls.flatMap (·.excluded)⟩ := by
  induction calls generalizing search with
  | nil => simp
  | cons call calls ih =>
    rw [List.foldl_cons, ih, List.flatMap_cons, List.flatMap_cons]
    cases call with
    | including patterns | excluding patterns =>
      simp [PatternCall.apply, PatternCall.included, PatternCall.excluded,
        ExecutableFiles.including, ExecutableFiles.excluding]

theorem ofCalls_eq (root : Path) (calls : List PatternCall) :
    ofCalls root calls = ⟨root, calls.flatMap (·.included), calls.flatMap (·.excluded)⟩ :=
  foldl_apply (ofRoot root) calls

/-! ## The result of a search -/

/-- What is known of the files that a search finds among the entries of a walk. -/
structure Finds (library : GlobLibrary Pattern PatternSet) (hits : Pattern → Path → Bool)
    (host : Host) (entries : List WalkEntry) (search : ExecutableFiles) (files : List Path) :
    Prop where
  /-- There is one file for each entry that is listed, under its canonical name. -/
  perm : files.Perm ((entries.filter (search.Lists library hits ·)).map
    fun found => host.canonical found.path)
  ascending : IsAscending compare files
  /-- There is no other order of them that is ascending. -/
  determined : ∀ others : List Path, others.Perm files → IsAscending compare others →
    others = files
  /-- Each is absolute and its own canonical name, and a regular file lies there. -/
  settled : ∀ file ∈ files, file.isAbsolute = true ∧ host.canonical file = file ∧
    ∃ place content, host.tree.IsReal place ∧ host.tree.entryAt place = some (.file content) ∧
      file = place.path

/-- The listed files in order are the result of a search. -/
theorem finds_selected (hwalk : host.FilesResolve walk)
    (hreal : host.tree.IsReal host.workingDirectory) (search : ExecutableFiles) :
    Finds library hits host (walk search.root) search
      (search.selected library hits walk host) where
  perm := sortBy_perm _ _
  ascending := isAscending_sortBy _
  determined others hperm hascending := by
    apply IsAscending.eq_of_perm hascending (isAscending_sortBy _) hperm
    intro file hfile twin htwin
    exact eq_of_compare_selected hwalk hreal (hperm.mem_iff.1 hfile) (hperm.mem_iff.1 htwin)
  settled file hfile := by
    obtain ⟨place, content, hplace, hcontent, rfl⟩ :=
      exists_place_of_mem_selected hwalk hreal hfile
    exact ⟨Path.isAbsolute_ofNames place, Host.canonical_path hplace, place, content, hplace,
      hcontent, rfl⟩

/-- Below the root of a search a path is the names on the way down. -/
theorem relativePath_descend (search : ExecutableFiles) {names : List String}
    (h : ∀ name ∈ names, IsFileName name) :
    search.relativePath (search.root.descend names) = ⟨"/".intercalate names⟩ := by
  rw [relativePath, Path.below?_descend _ h, Option.getD_some]

end ExecutableFiles

/-! ## The walk and the patterns of this library -/

/-- A list of patterns matches as a set of them does. -/
theorem Glob.matchesAny_library : Glob.library.MatchesAny Glob.matchesPath := by
  intro globs set h p
  cases h
  rfl

/-- In a tree that a file system can hold, what the walk takes for a regular file is one. -/
theorem Walk.filesResolve_entries (hproper : host.tree.IsProper) :
    host.FilesResolve (Walk.entries host) := by
  intro root found hfound hfile
  obtain ⟨-, names, place, -, -, hleads⟩ := Walk.isBelow_of_mem_entries hproper hfound
  obtain ⟨content, hcontent⟩ := hleads.file hfile
  exact ⟨place, content, hleads.leads, hcontent⟩

namespace ExecutableFiles

variable {search : ExecutableFiles}

/-- The search with the walk and the patterns of this library finds the listed entries, and an
entry is seen from the root by the names on the way down to it. -/
theorem exists_findOn (hproper : host.tree.IsProper)
    (hreal : host.tree.IsReal host.workingDirectory) (h : search.Compiles Glob.library) :
    ∃ files, search.findOn host = .ok files ∧
      Finds Glob.library Glob.matchesPath host (Walk.entries host search.root) search files ∧
      ∀ found ∈ Walk.entries host search.root, ∃ names, (∀ name ∈ names, IsFileName name) ∧
        found.path = search.root.descend names ∧
        search.relativePath found.path = ⟨"/".intercalate names⟩ := by
  refine ⟨_, find_of_compiles Glob.matchesAny_library h,
    finds_selected (Walk.filesResolve_entries hproper) hreal search, fun found hfound => ?_⟩
  obtain ⟨-, names, place, hnames, hpath, -⟩ := Walk.isBelow_of_mem_entries hproper hfound
  refine ⟨names, hnames, hpath, ?_⟩
  rw [hpath, relativePath_descend search hnames]

/-! ## Any walk and any library of patterns -/

/-- A search whose patterns compile finds the listed entries of the walk, one file for each
under its canonical name, in ascending order; the relative paths that the patterns are asked
about are the names below the root. The result is the same whatever the calls that gave the
patterns, in whatever order and how often. More patterns to leave out only remove files, and
more patterns to list only add some where there were any before. The first text that cannot be
read is reported, among the patterns to list before those to leave out, whatever the walk and
the host. -/
theorem search_finds_listed_files (library : GlobLibrary Pattern PatternSet)
    (hits : Pattern → Path → Bool) (hlibrary : library.MatchesAny hits) (host : Host)
    (hreal : host.tree.IsReal host.workingDirectory) (walk : Path → List WalkEntry)
    (hwalk : host.FilesResolve walk) (search : ExecutableFiles) :
    (search.Compiles library → ∃ files, search.find library walk host = .ok files ∧
      Finds library hits host (walk search.root) search files ∧
      (∀ calls, SamePatterns search (ofCalls search.root calls) →
        (ofCalls search.root calls).Compiles library →
          (ofCalls search.root calls).find library walk host = .ok files) ∧
      (∀ patterns, (search.excluding patterns).Compiles library → ∃ fewer,
        (search.excluding patterns).find library walk host = .ok fewer ∧
          fewer.Sublist files) ∧
      (search.included ≠ [] → ∀ patterns, (search.including patterns).Compiles library →
        ∃ more, (search.including patterns).find library walk host = .ok more ∧
          files.Sublist more)) ∧
    (∀ names : List String, (∀ name ∈ names, IsFileName name) →
      search.relativePath (search.root.descend names) = ⟨"/".intercalate names⟩) ∧
    (∀ calls : List PatternCall, calls.flatMap (·.included) = search.included →
      calls.flatMap (·.excluded) = search.excluded → ofCalls search.root calls = search) ∧
    ∀ before bad after cause, (∀ pattern ∈ before, IsPattern library pattern) →
      library.read (withSeparators bad) = .error cause →
      search.included = before ++ bad :: after ∨
        IsPatternSet library search.included ∧ search.excluded = before ++ bad :: after →
      ∀ (walk : Path → List WalkEntry) (host : Host),
        search.find library walk host = .error (.invalidPattern bad cause) := by
  refine ⟨fun hcompiles => ⟨_, find_of_compiles hlibrary hcompiles,
    finds_selected hwalk hreal search, ?calls, ?fewer, ?more⟩,
    fun names => relativePath_descend search, ?split, ?fault⟩
  case calls =>
    intro calls hsame hother
    rw [find_of_compiles hlibrary hother, hsame.selected_eq]
  case fewer =>
    intro patterns hmore
    refine ⟨_, find_of_compiles hlibrary hmore, ?_⟩
    exact selected_sublist hwalk hreal rfl fun _ => lists_of_excluding
  case more =>
    intro hsome patterns hmore
    refine ⟨_, find_of_compiles hlibrary hmore, ?_⟩
    exact selected_sublist hwalk hreal rfl fun _ hlists => hlists.including hsome
  case split =>
    intro calls hincluded hexcluded
    rw [ofCalls_eq, hincluded, hexcluded]
  case fault =>
    intro before bad after cause hbefore hbad hpatterns walk host
    have hset : compileSet library (before ++ bad :: after) = .error (.invalidPattern bad cause) :=
      compileSet_of_fault hbefore hbad
    obtain hincluded | ⟨⟨included, hincluded⟩, hexcluded⟩ := hpatterns
    · rw [find, hincluded, hset]
      rfl
    · rw [find, hincluded, hexcluded, hset]
      rfl

namespace TwoWays

/-! A page with a link to it beside it, and a page of the same name elsewhere. -/

/-- The page, the link and the other page, seen from the directory that holds them. -/
def site : Host where
  tree := ((FileTree.place ∅ ["site", "pages", "start"] (.file [])).place
    ["site", "pages", "home"] (.link ⟨"start"⟩)).place ["site", "build", "start"] (.file [])
  workingDirectory := ["site"]

/-- A search for the pages that were not built. -/
def pages : ExecutableFiles :=
  ((ofRoot ⟨"/site/"⟩).including ["pages/*"]).excluding ["build/**"]

/-- The patterns of the search once more, in another order. -/
def calls : List PatternCall :=
  [.excluding ["build/**"], .including ["pages/*"], .including ["pages/*", "pages/*"]]

/-- A search with two texts that are no patterns. -/
def faulty : ExecutableFiles := ((ofRoot ⟨"/site"⟩).excluding ["["]).including ["pages/*", "a]b[c"]

/-- The site is a tree that a file system can hold. -/
theorem isProper_site : site.tree.IsProper := by
  dsimp only [site]
  refine ((FileTree.IsProper.empty.place ?_ _).place ?_ _).place ?_ _
  all_goals decide

/-- The working directory is a real place. -/
theorem isReal_site : site.tree.IsReal site.workingDirectory :=
  .child .root rfl (by decide) rfl fun _ h => nomatch h

/-- The patterns of the search can be read and put together. -/
theorem compiles_pages : pages.Compiles Glob.library := by
  decide +kernel

/-- So can they when they come in other calls. -/
theorem compiles_calls : (ofCalls pages.root calls).Compiles Glob.library := by
  rw [ofCalls_eq]
  decide +kernel

/-- The calls give the patterns of the search, one of them three times. -/
theorem samePatterns_calls : SamePatterns pages (ofCalls pages.root calls) := by
  rw [ofCalls_eq]
  refine ⟨rfl, fun pattern => ?_, fun pattern => Iff.rfl⟩
  simp [pages, calls, PatternCall.included, ofRoot, including, excluding]

/-- The page and the link to it are both listed under the name of the page. -/
theorem listed_pages :
    ((Walk.entries site pages.root).filter (pages.Lists Glob.library Glob.matchesPath ·)).map
      (fun found => site.canonical found.path) =
        [⟨"/site/pages/start"⟩, ⟨"/site/pages/start"⟩] := by
  decide +kernel

/-- The page is found twice, by its own name and by the link, also when the patterns are given
otherwise; leaving the link out removes it once. The first text that is no pattern is the one
among the patterns to list. -/
theorem pages_are_found :
    Glob.library.MatchesAny Glob.matchesPath ∧ site.tree.IsReal site.workingDirectory ∧
    site.FilesResolve (Walk.entries site) ∧
    (pages.Compiles Glob.library ∧ pages.find Glob.library (Walk.entries site) site =
      .ok [⟨"/site/pages/start"⟩, ⟨"/site/pages/start"⟩]) ∧
    (SamePatterns pages (ofCalls pages.root calls) ∧
      (ofCalls pages.root calls).Compiles Glob.library ∧
      (ofCalls pages.root calls).find Glob.library (Walk.entries site) site =
        .ok [⟨"/site/pages/start"⟩, ⟨"/site/pages/start"⟩]) ∧
    ((pages.excluding ["pages/home"]).Compiles Glob.library ∧ ∃ fewer,
      (pages.excluding ["pages/home"]).find Glob.library (Walk.entries site) site = .ok fewer ∧
        fewer.Sublist [⟨"/site/pages/start"⟩, ⟨"/site/pages/start"⟩]) ∧
    (pages.included ≠ [] ∧ (pages.including ["*/start"]).Compiles Glob.library ∧ ∃ more,
      (pages.including ["*/start"]).find Glob.library (Walk.entries site) site = .ok more ∧
        [⟨"/site/pages/start"⟩, ⟨"/site/pages/start"⟩].Sublist more) ∧
    ((∀ name ∈ ["pages", "home"], IsFileName name) ∧
      pages.relativePath (pages.root.descend ["pages", "home"]) =
        ⟨"/".intercalate ["pages", "home"]⟩) ∧
    ofCalls pages.root [.including [], .excluding ["build/**"], .including ["pages/*"]] = pages ∧
    ((∀ pattern ∈ ["pages/*"], IsPattern Glob.library pattern) ∧
      Glob.library.read (withSeparators "a]b[c") = .error (.globFault "a]b[c" .unclosedClass) ∧
      faulty.included = ["pages/*"] ++ "a]b[c" :: [] ∧
      ∀ (walk : Path → List WalkEntry) (host : Host), faulty.find Glob.library walk host =
        .error (.invalidPattern "a]b[c" (.globFault "a]b[c" .unclosedClass))) := by
  have hwalk : site.FilesResolve (Walk.entries site) := Walk.filesResolve_entries isProper_site
  obtain ⟨hfinds, hnames, hsplit, -⟩ := search_finds_listed_files Glob.library Glob.matchesPath
    Glob.matchesAny_library site isReal_site (Walk.entries site) hwalk pages
  obtain ⟨-, -, -, hfault⟩ := search_finds_listed_files Glob.library Glob.matchesPath
    Glob.matchesAny_library site isReal_site (Walk.entries site) hwalk faulty
  obtain ⟨files, hfind, hfound, hcalls, hfewer, hmore⟩ := hfinds compiles_pages
  have hperm := hfound.perm
  rw [listed_pages] at hperm
  have hascending : IsAscending compare
      [(⟨"/site/pages/start"⟩ : Path), ⟨"/site/pages/start"⟩] := by
    rw [IsAscending]
    decide +kernel
  obtain rfl := hfound.determined _ hperm.symm hascending
  have hexcluding : (pages.excluding ["pages/home"]).Compiles Glob.library := by decide +kernel
  have hincluding : (pages.including ["*/start"]).Compiles Glob.library := by decide +kernel
  have hway : ∀ name ∈ ["pages", "home"], IsFileName name := by decide +kernel
  have hbefore : ∀ pattern ∈ ["pages/*"], IsPattern Glob.library pattern := by decide +kernel
  have hbad : Glob.library.read (withSeparators "a]b[c") =
      .error (.globFault "a]b[c" .unclosedClass) := by decide +kernel
  exact ⟨Glob.matchesAny_library, isReal_site, hwalk, ⟨compiles_pages, hfind⟩,
    ⟨samePatterns_calls, compiles_calls, hcalls calls samePatterns_calls compiles_calls⟩,
    ⟨hexcluding, hfewer _ hexcluding⟩,
    ⟨List.cons_ne_nil _ _, hincluding, hmore (List.cons_ne_nil _ _) _ hincluding⟩,
    ⟨hway, hnames _ hway⟩, hsplit _ rfl rfl,
    ⟨hbefore, hbad, rfl, hfault _ _ _ _ hbefore hbad (.inl rfl)⟩⟩

end TwoWays

end ExecutableFiles

end Coverage
