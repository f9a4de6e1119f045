/-
# Display names

A name that is shortened for display is what is left of a path below the root of a
directory. Joined to the root it names the same file again, so nothing is lost and no two
files get one name. What does not lie below the root, the root itself included, keeps its
spelling.
-/
import Coverage.Proofs.Host.Canonical
import Coverage.Proofs.Path.Below

namespace Coverage.RelativeDirectory

/-- A path lies below the root: its components go on from those of the root. -/
def IsAbove (directory : RelativeDirectory) (p : Path) : Prop :=
  ∃ rest, rest ≠ [] ∧ p.components = directory.root.components ++ rest

section Names

variable {directory : RelativeDirectory} {p q : Path} {rest : List Component}

theorem isAbsolute_root (h : ∃ host place, directory = ofPath host place) :
    directory.root.isAbsolute = true := by
  obtain ⟨host, place, rfl⟩ := h
  exact Host.isAbsolute_canonical host place

/-- A path below the root gets the components that follow those of the root. -/
theorem relativeName_of_append (hroot : directory.root.isAbsolute = true) (hrest : rest ≠ [])
    (h : p.components = directory.root.components ++ rest) :
    (directory.relativeName p).head = [] ∧ (directory.relativeName p).components = rest := by
  obtain ⟨below, hbelow, hhead, hcomponents, hempty⟩ := Path.exists_below?_of_append hroot h
  have htext : ¬ below.text.isEmpty = true := fun hnone =>
    hrest (hempty.1 (String.isEmpty_iff.1 hnone))
  rw [relativeName, hbelow]
  dsimp only
  rw [if_neg htext]
  exact ⟨hhead, hcomponents⟩

/-- Every other path stays as it is spelled. -/
theorem relativeName_of_not_isAbove (hroot : directory.root.isAbsolute = true)
    (h : ¬ directory.IsAbove p) : directory.relativeName p = p := by
  rw [relativeName]
  by_cases hprefix : directory.root.components <+: p.components
  · obtain ⟨rest, hrest⟩ := hprefix
    obtain ⟨below, hbelow, -, -, hempty⟩ := Path.exists_below?_of_append hroot hrest.symm
    have hnone : rest = [] := by
      by_contra hsome
      exact h ⟨rest, hsome, hrest.symm⟩
    rw [hbelow]
    dsimp only
    rw [if_pos (String.isEmpty_iff.2 (hempty.2 hnone))]
  · rw [Path.below?_eq_none hprefix]

/-- Joined to the root, a display name names the path again. -/
theorem components_join_relativeName (hroot : directory.root.isAbsolute = true)
    (hp : p.isAbsolute = true) :
    (directory.root.join (directory.relativeName p)).components = p.components := by
  by_cases h : directory.IsAbove p
  · obtain ⟨rest, hrest, hcomponents⟩ := h
    obtain ⟨hhead, hrelative⟩ := relativeName_of_append hroot hrest hcomponents
    rw [Path.components_join_of_head hroot hhead, hrelative, hcomponents]
  · rw [relativeName_of_not_isAbove hroot h, Path.join_of_isAbsolute _ hp]

theorem isAbsolute_relativeName_eq_false_iff (hroot : directory.root.isAbsolute = true)
    (hp : p.isAbsolute = true) :
    (directory.relativeName p).isAbsolute = false ↔ directory.IsAbove p := by
  constructor
  · intro hrelative
    by_contra h
    rw [relativeName_of_not_isAbove hroot h, hp] at hrelative
    cases hrelative
  · rintro ⟨rest, hrest, hcomponents⟩
    exact Path.isAbsolute_eq_false_of_head (relativeName_of_append hroot hrest hcomponents).1

/-- Two paths get one name just when they are one path, up to their spelling. -/
theorem components_relativeName_inj (hroot : directory.root.isAbsolute = true)
    (hp : p.isAbsolute = true) (hq : q.isAbsolute = true) :
    (directory.relativeName p).components = (directory.relativeName q).components ↔
      p.components = q.components := by
  constructor
  · intro h
    -- A name shows whether its path lies below the root, by not starting at the root.
    have habove : directory.IsAbove p ↔ directory.IsAbove q := by
      rw [← isAbsolute_relativeName_eq_false_iff hroot hp,
        ← isAbsolute_relativeName_eq_false_iff hroot hq, ← Bool.not_eq_true, ← Bool.not_eq_true,
        ← Path.root_mem_components_iff, ← Path.root_mem_components_iff, h]
    by_cases hbelow : directory.IsAbove p
    · obtain ⟨rest, hrest, hcomponents⟩ := hbelow
      obtain ⟨other, hother, hothers⟩ := habove.1 ⟨rest, hrest, hcomponents⟩
      rw [(relativeName_of_append hroot hrest hcomponents).2,
        (relativeName_of_append hroot hother hothers).2] at h
      rw [hcomponents, hothers, h]
    · rwa [relativeName_of_not_isAbove hroot hbelow,
        relativeName_of_not_isAbove hroot (mt habove.2 hbelow)] at h
  · intro h
    by_cases hbelow : directory.IsAbove p
    · obtain ⟨rest, hrest, hcomponents⟩ := hbelow
      rw [(relativeName_of_append hroot hrest hcomponents).2,
        (relativeName_of_append hroot hrest (h.symm.trans hcomponents)).2]
    · have hbeside : ¬ directory.IsAbove q := fun ⟨rest, hrest, hcomponents⟩ =>
        hbelow ⟨rest, hrest, h.trans hcomponents⟩
      rwa [relativeName_of_not_isAbove hroot hbelow, relativeName_of_not_isAbove hroot hbeside]

theorem text_relativeName_ne (directory : RelativeDirectory) (h : p.text ≠ "") :
    (directory.relativeName p).text ≠ "" := by
  rw [relativeName]
  split
  · split
    · exact h
    · next hsome => exact mt String.isEmpty_iff.2 hsome
  · exact h

end Names

/-- Joined to the root, the display name of an absolute path names the path again, so no two
files get one name. It is relative just when the path lies below the root. Every other path
stays as it is spelled, and no path loses all of its text. -/
theorem display_names_lose_nothing (directory : RelativeDirectory)
    (hbuilt : ∃ host place, directory = ofPath host place) :
    (∀ p : Path, p.isAbsolute = true →
      (directory.root.join (directory.relativeName p)).components = p.components) ∧
    (∀ p q : Path, p.isAbsolute = true → q.isAbsolute = true →
      ((directory.relativeName p).components = (directory.relativeName q).components ↔
        p.components = q.components)) ∧
    (∀ p : Path, p.isAbsolute = true →
      ((directory.relativeName p).isAbsolute = false ↔ directory.IsAbove p)) ∧
    (∀ p : Path, ¬ directory.IsAbove p → directory.relativeName p = p) ∧
    (∀ p : Path, p.text ≠ "" → (directory.relativeName p).text ≠ "") := by
  have hroot := isAbsolute_root hbuilt
  exact ⟨fun p => components_join_relativeName hroot,
    fun p q => components_relativeName_inj hroot,
    fun p => isAbsolute_relativeName_eq_false_iff hroot,
    fun p => relativeName_of_not_isAbove hroot, fun p => text_relativeName_ne directory⟩

namespace Project

/-- A directory with a link to it beside it. -/
def host : Host where
  tree := (FileTree.place ∅ ["proj"] .directory).place ["link"] (.link ⟨"proj"⟩)
  workingDirectory := ["proj"]

/-- The directory, found by the link. -/
def directory : RelativeDirectory := .ofPath host ⟨"/link/."⟩

/-- A page below the directory, with separators and dots to spare. -/
def page : Path := ⟨"//proj/.//pages/../page/."⟩

/-- A page in a directory whose name goes on from that of the directory. -/
def sibling : Path := ⟨"/project//page"⟩

/-- The page is shown without the directory. The page beside it stays as it is, and so does
the directory itself. -/
theorem page_is_shown :
    (∃ host place, directory = ofPath host place) ∧
      (page.isAbsolute = true ∧ directory.relativeName page = ⟨"pages/../page"⟩ ∧
        (directory.root.join (directory.relativeName page)).components = page.components ∧
        directory.IsAbove page) ∧
      (sibling.isAbsolute = true ∧ page.components ≠ sibling.components ∧
        (directory.relativeName page).components ≠ (directory.relativeName sibling).components) ∧
      (¬ directory.IsAbove sibling ∧ directory.relativeName sibling = sibling) ∧
      (¬ directory.IsAbove ⟨"/proj/"⟩ ∧ directory.relativeName ⟨"/proj/"⟩ = ⟨"/proj/"⟩) ∧
      sibling.text ≠ "" ∧ (directory.relativeName sibling).text ≠ "" := by
  have hbuilt : ∃ host place, directory = ofPath host place := ⟨host, ⟨"/link/."⟩, rfl⟩
  obtain ⟨hjoin, hinj, hrelative, hkeeps, hsome⟩ := display_names_lose_nothing directory hbuilt
  have hpage : page.isAbsolute = true := by decide +kernel
  have hsibling : sibling.isAbsolute = true := by decide +kernel
  have hdiffers : page.components ≠ sibling.components := by decide +kernel
  have hname : directory.relativeName page = ⟨"pages/../page"⟩ := by decide +kernel
  have hbeside : ¬ directory.IsAbove sibling := by
    intro h
    have hfalse := (hrelative sibling hsibling).2 h
    revert hfalse
    decide +kernel
  have hitself : ¬ directory.IsAbove ⟨"/proj/"⟩ := by
    intro h
    have hfalse := (hrelative ⟨"/proj/"⟩ rfl).2 h
    revert hfalse
    decide +kernel
  refine ⟨hbuilt, ⟨hpage, hname, hjoin page hpage, ?_⟩, ⟨hsibling, hdiffers, ?_⟩,
    ⟨hbeside, hkeeps sibling hbeside⟩, ⟨hitself, hkeeps _ hitself⟩, ?_, hsome sibling ?_⟩
  · exact (hrelative page hpage).1 (by rw [hname]; rfl)
  · exact mt (hinj page sibling hpage hsibling).1 hdiffers
  all_goals decide +kernel

end Project

end Coverage.RelativeDirectory
