/-
# Canonical names

The canonical name of a path that leads somewhere is the path of a real location, and such
a path is its own canonical name. Where a path leads nowhere its canonical name is lexical:
plain text in which every `..` has taken back a name. That text may lead somewhere although
the path did not, since `gone/..` leads nowhere and leaves nothing behind. If it leads
through a link then, it is not a canonical name itself, and asking again gives the real
one. Paths without a `..` that end in a name are safe from this, and asking twice is always
enough.
-/
import Coverage.Host
import Coverage.Proofs.FileTree.RealLocations

namespace Coverage.Host

variable {host : Host} {p : Path} {place : Location}

theorem isAbsolute_absolute (host : Host) (p : Path) : (host.absolute p).isAbsolute = true :=
  Path.isAbsolute_join p (Path.isAbsolute_ofNames _)

theorem absolute_of_isAbsolute (host : Host) (h : p.isAbsolute = true) : host.absolute p = p :=
  Path.join_of_isAbsolute _ h

theorem canonical_of_realLocation (h : host.realLocation p = some place) :
    host.canonical p = place.path := by
  rw [canonical, h]

theorem canonical_of_unresolved (h : host.realLocation p = none) :
    host.canonical p = (host.absolute p).normal := by
  rw [canonical, h]

theorem isAbsolute_canonical (host : Host) (p : Path) : (host.canonical p).isAbsolute = true := by
  cases h : host.realLocation p with
  | some place =>
    rw [canonical_of_realLocation h]
    exact Path.isAbsolute_ofNames place
  | none =>
    rw [canonical_of_unresolved h, Path.isAbsolute_normal]
    exact isAbsolute_absolute host p

/-- A real location is known by its path. -/
theorem canonical_path (h : host.tree.IsReal place) : host.canonical place.path = place.path :=
  canonical_of_realLocation (FileTree.realLocation_path h)

/-- The canonical names are the paths of real locations, and the normal absolute paths that
lead nowhere. -/
theorem canonical_eq_self_iff (hreal : host.tree.IsReal host.workingDirectory) :
    host.canonical p = p ↔ (∃ place, host.tree.IsReal place ∧ p = place.path) ∨
      host.realLocation p = none ∧ p.isAbsolute = true ∧ p.normal = p := by
  constructor
  · intro hself
    cases h : host.realLocation p with
    | some place =>
      rw [canonical_of_realLocation h] at hself
      exact .inl ⟨place, FileTree.isReal_of_realLocation hreal h, hself.symm⟩
    | none =>
      have habsolute : p.isAbsolute = true := hself ▸ isAbsolute_canonical host p
      rw [canonical_of_unresolved h, absolute_of_isAbsolute host habsolute] at hself
      exact .inr ⟨rfl, habsolute, hself⟩
  · rintro (⟨place, hplace, rfl⟩ | ⟨h, habsolute, hnormal⟩)
    · exact canonical_path hplace
    · rw [canonical_of_unresolved h, absolute_of_isAbsolute host habsolute, hnormal]

/-- The absolute path leads where the path leads. -/
theorem realLocation_absolute (hreal : host.tree.IsReal host.workingDirectory)
    (hsome : p.text ≠ "") : host.realLocation (host.absolute p) = host.realLocation p := by
  cases habsolute : p.isAbsolute with
  | true => rw [absolute_of_isAbsolute host habsolute]
  | false =>
    have hjoined := isAbsolute_absolute host p
    rw [realLocation, realLocation, FileTree.realLocation, FileTree.realLocation,
      if_neg (Path.text_nonempty hjoined), if_pos hjoined, habsolute,
      if_neg fun h => hsome (String.isEmpty_iff.1 h), if_neg Bool.false_ne_true, absolute,
      Location.path, Path.pieces_join_ofNames hreal.isFileName habsolute]
    apply FileTree.resolveFrom_congr
    apply FileTree.follow_root_of_isReal hreal
    exact List.append_ne_nil_of_right_ne_nil _ p.pieces_ne_nil

/-- The absolute form of a direct path is direct. -/
theorem isDirect_absolute (hreal : host.tree.IsReal host.workingDirectory) (h : p.IsDirect) :
    (host.absolute p).IsDirect := by
  cases habsolute : p.isAbsolute with
  | true => rwa [absolute_of_isAbsolute host habsolute]
  | false =>
    have hpieces := Path.pieces_join_ofNames hreal.isFileName habsolute
    constructor
    · rw [absolute, Location.path, hpieces, List.mem_cons, List.mem_append, List.mem_map]
      rintro (hnil | ⟨name, hname, hparent⟩ | hparent)
      · cases hnil
      · exact (hreal.isFileName name hname).ne_parent (String.toList_inj.1 hparent)
      · exact h.no_parent hparent
    · intro last hlast
      rw [absolute, Location.path, hpieces, List.getLast?_cons, Option.some_inj,
        List.getLast?_append] at hlast
      obtain ⟨own, hown⟩ := Option.isSome_iff_exists.1
        (List.getLast?_isSome.2 p.pieces_ne_nil)
      rw [hown] at hlast
      exact h.ends_in_name last (hown.trans (congrArg some hlast))

/-- Where a direct path leads nowhere its lexical name leads nowhere. -/
theorem realLocation_canonical_of_isDirect (hreal : host.tree.IsReal host.workingDirectory)
    (hdirect : p.IsDirect) (h : host.realLocation p = none) :
    host.realLocation (host.canonical p) = none := by
  have hsome : p.text ≠ "" := by
    intro hempty
    have hfiller := hdirect.ends_in_name [] (by rw [Path.pieces, hempty]; rfl)
    cases hfiller
  have habsolute := isAbsolute_absolute host p
  have hnormal : (host.absolute p).normal.isAbsolute = true :=
    (Path.isAbsolute_normal _).trans habsolute
  have hleads : host.realLocation (host.absolute p) = none :=
    (realLocation_absolute hreal hsome).trans h
  rw [realLocation, FileTree.realLocation, if_neg (Path.text_nonempty habsolute),
    if_pos habsolute] at hleads
  rw [canonical_of_unresolved h, realLocation, FileTree.realLocation,
    if_neg (Path.text_nonempty hnormal), if_pos hnormal]
  exact (((isDirect_absolute hreal hdirect).thinned habsolute).resolveFrom _ _ _).symm.trans hleads

/-! ## Asking twice -/

theorem normal_canonical (hreal : host.tree.IsReal host.workingDirectory) (p : Path) :
    (host.canonical p).normal = host.canonical p := by
  cases h : host.realLocation p with
  | some place =>
    rw [canonical_of_realLocation h]
    exact Path.normal_ofNames (FileTree.isReal_of_realLocation hreal h).isFileName
  | none => rw [canonical_of_unresolved h, Path.normal_normal]

theorem canonical_canonical_of_realLocation (hreal : host.tree.IsReal host.workingDirectory)
    (h : host.realLocation p = some place) :
    host.canonical (host.canonical p) = host.canonical p := by
  rw [canonical_of_realLocation h]
  exact canonical_path (FileTree.isReal_of_realLocation hreal h)

/-- A canonical name stays when it leads nowhere, and when no link is on the way. -/
theorem canonical_canonical_iff (hreal : host.tree.IsReal host.workingDirectory) :
    host.canonical (host.canonical p) = host.canonical p ↔
      host.realLocation (host.canonical p) = none ∨
        ∃ place, host.tree.IsReal place ∧ host.canonical p = place.path := by
  rw [canonical_eq_self_iff hreal]
  constructor
  · rintro (h | ⟨h, -⟩)
    · exact .inr h
    · exact .inl h
  · rintro (h | h)
    · exact .inr ⟨h, isAbsolute_canonical host p, normal_canonical hreal p⟩
    · exact .inl h

theorem canonical_canonical_of_isDirect (hreal : host.tree.IsReal host.workingDirectory)
    (hdirect : p.IsDirect) : host.canonical (host.canonical p) = host.canonical p := by
  cases h : host.realLocation p with
  | some place => exact canonical_canonical_of_realLocation hreal h
  | none =>
    exact (canonical_canonical_iff hreal).2
      (.inl (realLocation_canonical_of_isDirect hreal hdirect h))

theorem canonical_canonical_canonical (hreal : host.tree.IsReal host.workingDirectory) (p : Path) :
    host.canonical (host.canonical (host.canonical p)) = host.canonical (host.canonical p) := by
  cases h : host.realLocation (host.canonical p) with
  | some place => exact canonical_canonical_of_realLocation hreal h
  | none =>
    have hself := (canonical_canonical_iff hreal).2 (.inl h)
    rw [hself, hself]

/-- Where a path leads somewhere its canonical name is that of the real location; elsewhere
it is lexical, and is the name that it has itself just when it leads nowhere or through no
link. Direct paths keep their name, and every path does after the second time. -/
theorem canonical_settles (host : Host) (hreal : host.tree.IsReal host.workingDirectory)
    (p : Path) :
    (∀ place, host.realLocation p = some place → host.tree.IsReal place ∧
      host.canonical p = place.path ∧ host.canonical (host.canonical p) = host.canonical p) ∧
    (host.realLocation p = none → host.canonical p = (host.absolute p).normal ∧
      (host.canonical (host.canonical p) = host.canonical p ↔
        host.realLocation (host.canonical p) = none ∨
          ∃ place, host.tree.IsReal place ∧ host.canonical p = place.path)) ∧
    (p.IsDirect → host.canonical (host.canonical p) = host.canonical p) ∧
    host.canonical (host.canonical (host.canonical p)) = host.canonical (host.canonical p) := by
  refine ⟨fun place h => ?_, fun h => ?_, canonical_canonical_of_isDirect hreal,
    canonical_canonical_canonical hreal p⟩
  · exact ⟨FileTree.isReal_of_realLocation hreal h, canonical_of_realLocation h,
      canonical_canonical_of_realLocation hreal h⟩
  · exact ⟨canonical_of_unresolved h, canonical_canonical_iff hreal⟩

namespace Shortcut

/-- A page and a link to it in one directory, seen from there. -/
def site : Host where
  tree := (FileTree.place ∅ ["site", "page"] (.file [])).place ["site", "shortcut"] (.link ⟨"page"⟩)
  workingDirectory := ["site"]

/-- The way to the link leads through a directory that does not exist. -/
def page : Path := ⟨"gone/../shortcut"⟩

/-- The working directory is a real place. -/
theorem isReal_site : site.tree.IsReal site.workingDirectory :=
  .child .root rfl ⟨by decide, by decide, by decide, by decide⟩ rfl
    fun _ h => nomatch h

/-- The link is known by the page, the way through nowhere by the link, and a path that is
only missing by itself. -/
theorem site_settles :
    site.tree.IsReal site.workingDirectory ∧
      (site.realLocation ⟨"shortcut"⟩ = some ["site", "page"] ∧
        site.canonical ⟨"shortcut"⟩ = Location.path ["site", "page"] ∧
        site.canonical (site.canonical ⟨"shortcut"⟩) = site.canonical ⟨"shortcut"⟩) ∧
      (site.realLocation page = none ∧ site.canonical page = (site.absolute page).normal) ∧
      (Path.IsDirect ⟨"./gone//page"⟩ ∧
        site.canonical (site.canonical ⟨"./gone//page"⟩) = site.canonical ⟨"./gone//page"⟩) ∧
      site.canonical (site.canonical (site.canonical page)) =
        site.canonical (site.canonical page) := by
  have hlink : site.realLocation ⟨"shortcut"⟩ = some ["site", "page"] := by decide +kernel
  have hlost : site.realLocation page = none := by decide +kernel
  have hdirect : Path.IsDirect ⟨"./gone//page"⟩ := by
    refine ⟨by decide +kernel, fun last hlast => ?_⟩
    obtain rfl : "page".toList = last := Option.some.inj hlast
    rfl
  obtain ⟨hreached, -⟩ := canonical_settles site isReal_site ⟨"shortcut"⟩
  obtain ⟨-, hlexical, -, htwice⟩ := canonical_settles site isReal_site page
  obtain ⟨-, -, hkeeps, -⟩ := canonical_settles site isReal_site ⟨"./gone//page"⟩
  exact ⟨isReal_site, ⟨hlink, (hreached _ hlink).2⟩, ⟨hlost, (hlexical hlost).1⟩,
    ⟨hdirect, hkeeps hdirect⟩, htwice⟩

/-- The way through nowhere does not keep its name: what the name leads to has another. -/
theorem shortcut_changes_name :
    site.tree.IsReal site.workingDirectory ∧
      site.realLocation (site.canonical page) = some ["site", "page"] ∧
      site.canonical page ≠ Location.path ["site", "page"] ∧
      site.canonical (site.canonical page) ≠ site.canonical page := by
  refine ⟨isReal_site, ?_, ?_, ?_⟩
  all_goals decide +kernel

end Shortcut

/-! ## The lexical name -/

/-- A path that leads nowhere is known by plain text, in which each `..` has taken back the
nearest name that stood before it. Normalizing is idempotent, does not tell two spellings
apart, and goes along with joining. -/
theorem unresolved_is_lexical :
    (∀ (host : Host) (p : Path), host.realLocation p = none →
      host.canonical p = (host.absolute p).normal ∧ (host.canonical p).IsPlain) ∧
    (∀ p : Path, p.isAbsolute = true →
      p.normal = Path.ofNames (Path.keptNames p.components)) ∧
    (∀ p : Path, p.normal.normal = p.normal) ∧
    (∀ p q : Path, Path.Respelled p.text.toList q.text.toList → p.normal = q.normal) ∧
    (∀ p q : Path, p.isAbsolute = true → (p.join q).normal = (p.normal.join q).normal) := by
  refine ⟨fun host p h => ?_, fun p h => ?_, Path.normal_normal,
    fun p q => Path.normal_eq_of_respelled, fun p q => Path.normal_join q⟩
  · rw [canonical_of_unresolved h]
    exact ⟨rfl, Path.isPlain_normal (isAbsolute_absolute host p)⟩
  · rw [Path.normal_of_isAbsolute h, Path.lexicalNames_eq_keptNames]

namespace Gone

/-- An empty directory, seen from there. -/
def work : Host where
  tree := FileTree.place ∅ ["work", "site"] .directory
  workingDirectory := ["work", "site"]

/-- A page that is not there, by a way that leads above the root. -/
def page : Path := ⟨"../.././..//gone/./pages/../page/"⟩

/-- The page leads nowhere, so its name is what its spelling comes to: the ways up take back the
names before them, and none above the root. A spelling with a dot more comes to the same, and so
does a path that is joined before or after. -/
theorem page_is_lexical :
    (work.realLocation page = none ∧ work.canonical page = ⟨"/gone/page"⟩ ∧
        (work.canonical page).IsPlain) ∧
      ((work.absolute page).isAbsolute = true ∧
        (work.absolute page).normal = Path.ofNames ["gone", "page"]) ∧
      (Path.Respelled "/gone/./page".toList "/gone/page".toList ∧
        (⟨"/gone/./page"⟩ : Path).normal = (⟨"/gone/page"⟩ : Path).normal) ∧
      ((⟨"/gone/pages/.."⟩ : Path).isAbsolute = true ∧
        ((⟨"/gone/pages/.."⟩ : Path).join ⟨"../page"⟩).normal =
          ((⟨"/gone/pages/.."⟩ : Path).normal.join ⟨"../page"⟩).normal) := by
  obtain ⟨hlexical, hkept, -, hspelled, hjoined⟩ := unresolved_is_lexical
  have hlost : work.realLocation page = none := by decide +kernel
  have habsolute : (work.absolute page).isAbsolute = true := by decide +kernel
  have hnames : Path.keptNames (work.absolute page).components = ["gone", "page"] := by
    decide +kernel
  have hdot : Path.Respelled "/gone/./page".toList "/gone/page".toList :=
    .dot "/gone".toList "page".toList
  have hnormal := hkept (work.absolute page) habsolute
  rw [hnames] at hnormal
  obtain ⟨hcanonical, hplain⟩ := hlexical work page hlost
  exact ⟨⟨hlost, hcanonical.trans hnormal, hplain⟩, ⟨habsolute, hnormal⟩,
    ⟨hdot, hspelled _ _ hdot⟩, rfl, hjoined _ _ rfl⟩

end Gone

end Coverage.Host
