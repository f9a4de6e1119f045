/-
# What is left of a path below a directory

Taking a directory off the front of a path is by component, and what is left is a part of
the text as it was written. Pieces are dropped up to the last one that the directory names,
then fillers at both ends, so the text that is left starts with a piece that names
something: it is relative, and its components are those that follow the directory's
(`exists_below?_of_append`).
-/
import Coverage.Proofs.Path.Pieces
import Mathlib.Data.List.DropRight

namespace Coverage.Path

variable {base p q : Path} {pieces : List (List Char)}

theorem isFiller_iff {piece : List Char} :
    isFiller piece = true ↔ Component.ofPiece? piece = none := Option.isNone_iff_eq_none

/-- Pieces name nothing when all of them are fillers. -/
theorem named_eq_nil_iff : named pieces = [] ↔ ∀ piece ∈ pieces, isFiller piece = true := by
  rw [named, List.filterMap_eq_nil_iff]
  simp only [isFiller_iff]

/-- No piece names the root. -/
theorem root_notMem_named : Component.root ∉ named pieces := by
  intro h
  obtain ⟨piece, -, hpiece⟩ := List.mem_filterMap.1 h
  unfold Component.ofPiece? at hpiece
  split at hpiece <;> cases hpiece

/-- Only an absolute path has the root among its components. -/
theorem root_mem_components_iff : .root ∈ p.components ↔ p.isAbsolute = true := by
  rw [components, List.mem_append, ← named, or_iff_left root_notMem_named, head]
  split
  · next h => exact iff_of_true List.mem_cons_self h
  · next h =>
    refine iff_of_false (fun hmem => ?_) h
    split at hmem
    · cases List.mem_singleton.1 hmem
    · cases hmem

/-! ## Pieces that are dropped -/

/-- The pieces that are dropped name the first components. -/
theorem named_dropNamed (n : Nat) (pieces : List (List Char)) :
    named (dropNamed n pieces) = (named pieces).drop n := by
  fun_induction dropNamed n pieces with
  | case1 => rfl
  | case2 n => exact (List.drop_nil).symm
  | case3 n piece rest hfiller ih =>
    rw [ih, named, named, List.filterMap_cons_none (isFiller_iff.1 hfiller)]
  | case4 n piece rest hnamed ih =>
    obtain ⟨component, hcomponent⟩ := Option.ne_none_iff_exists'.1 (mt isFiller_iff.2 hnamed)
    rw [ih, named, named, List.filterMap_cons_some hcomponent, List.drop_succ_cons]

theorem dropNamed_suffix (n : Nat) (pieces : List (List Char)) :
    dropNamed n pieces <:+ pieces := by
  fun_induction dropNamed n pieces with
  | case1 => exact List.suffix_rfl
  | case2 => exact List.suffix_rfl
  | case3 n piece rest hfiller ih => exact ih.trans (List.suffix_cons piece rest)
  | case4 n piece rest hnamed ih => exact ih.trans (List.suffix_cons piece rest)

theorem named_dropWhile_isFiller (pieces : List (List Char)) :
    named (pieces.dropWhile isFiller) = named pieces := by
  induction pieces with
  | nil => rfl
  | cons piece rest ih =>
    rw [List.dropWhile_cons]
    split
    · next hfiller =>
      rw [ih, named, named, List.filterMap_cons_none (isFiller_iff.1 hfiller)]
    · rfl

theorem named_reverse (pieces : List (List Char)) :
    named pieces.reverse = (named pieces).reverse := List.filterMap_reverse

/-- Trimmed pieces name what they named. -/
theorem named_trimFillers (pieces : List (List Char)) :
    named (trimFillers pieces) = named pieces := by
  rw [trimFillers, named_reverse, named_dropWhile_isFiller, named_reverse, List.reverse_reverse,
    named_dropWhile_isFiller]

theorem trimFillers_isPrefix (pieces : List (List Char)) :
    trimFillers pieces <+: pieces.dropWhile isFiller := List.rdropWhile_prefix isFiller _

/-- Trimmed pieces start with one that names something. -/
theorem isFiller_of_head?_trimFillers {first : List Char}
    (h : (trimFillers pieces).head? = some first) : isFiller first = false := by
  obtain ⟨rest, hrest⟩ := trimFillers_isPrefix pieces
  have hfirst : (pieces.dropWhile isFiller).head? = some first := by
    rw [← hrest, List.head?_append, h, Option.some_or]
  have hnot := List.head?_dropWhile_not isFiller pieces
  rw [hfirst] at hnot
  exact hnot

theorem mem_of_mem_trimFillers {piece : List Char} (h : piece ∈ trimFillers pieces) :
    piece ∈ pieces :=
  (List.dropWhile_suffix isFiller).subset ((trimFillers_isPrefix pieces).subset h)

/-! ## Paths of pieces -/

/-- Pieces that are put together at separators are cut there. -/
theorem pieces_ofPieces (hsome : pieces ≠ []) (hfree : ∀ piece ∈ pieces, '/' ∉ piece) :
    (ofPieces pieces).pieces = pieces := by
  rw [Path.pieces, ofPieces, String.toList_ofList]
  exact List.splitOn_intercalate '/' hfree hsome

/-- A text that starts with a piece that names something does not start at the root, and
its start names nothing by itself. -/
theorem head_eq_nil {first : List Char} (h : p.pieces.head? = some first)
    (hfirst : isFiller first = false) : p.head = [] := by
  rw [head, if_neg, if_neg]
  · rw [h]
    rintro hdot
    cases hdot
    cases hfirst
  · intro habsolute
    obtain ⟨rest, hrest⟩ := isAbsolute_iff.1 habsolute
    rw [Path.pieces, hrest, splitOn_separator_cons] at h
    cases h
    cases hfirst

theorem isAbsolute_eq_false_of_head (h : p.head = []) : p.isAbsolute = false := by
  rw [head] at h
  split at h
  · cases h
  · next hrelative => exact Bool.eq_false_iff.2 hrelative

/-- What trimmed pieces spell is relative and has their components. -/
theorem components_ofPieces_trimFillers (hfree : ∀ piece ∈ pieces, '/' ∉ piece) :
    (ofPieces (trimFillers pieces)).head = [] ∧
      (ofPieces (trimFillers pieces)).components = named pieces ∧
      ((ofPieces (trimFillers pieces)).text = "" ↔ named pieces = []) := by
  have hnamed := named_trimFillers pieces
  cases htrimmed : trimFillers pieces with
  | nil =>
    rw [htrimmed] at hnamed
    rw [← hnamed]
    exact ⟨rfl, rfl, iff_of_true rfl rfl⟩
  | cons first rest =>
    have hfirst : isFiller first = false := isFiller_of_head?_trimFillers (by rw [htrimmed]; rfl)
    have hpieces : (ofPieces (first :: rest)).pieces = first :: rest := by
      apply pieces_ofPieces (List.cons_ne_nil _ _)
      intro piece hpiece
      exact hfree piece (mem_of_mem_trimFillers (htrimmed ▸ hpiece))
    have hhead : (ofPieces (first :: rest)).head = [] := head_eq_nil (by rw [hpieces]; rfl) hfirst
    refine ⟨hhead, ?_, iff_of_false (fun htext => ?_) fun hnone => ?_⟩
    · rw [components, hhead, List.nil_append, ← named, hpieces, ← htrimmed, hnamed]
    · rw [Path.pieces, htext] at hpieces
      cases hpieces
      cases hfirst
    · rw [← hnamed, htrimmed, named_eq_nil_iff] at hnone
      rw [hnone first List.mem_cons_self] at hfirst
      cases hfirst

/-! ## What is left -/

/-- Below a directory, the components that follow its own are left. -/
theorem exists_below?_of_append {rest : List Component} (hbase : base.isAbsolute = true)
    (h : p.components = base.components ++ rest) :
    ∃ below, base.below? p = some below ∧ below.head = [] ∧ below.components = rest ∧
      (below.text = "" ↔ rest = []) := by
  have hp : p.isAbsolute = true := by
    apply root_mem_components_iff.1
    rw [h]
    exact List.mem_append_left _ (root_mem_components_iff.2 hbase)
  obtain ⟨text, htext⟩ := isAbsolute_iff.1 hp
  have hpieces : p.pieces = [] :: text.splitOn '/' := by
    rw [Path.pieces, htext, splitOn_separator_cons]
  have hrest : named (dropNamed (named base.pieces).length (text.splitOn '/')) = rest := by
    rw [components_of_isAbsolute hp, components_of_isAbsolute hbase, hpieces, named_nil_cons,
      List.cons_append, List.cons.injEq] at h
    rw [named_dropNamed, h.2, List.drop_left]
  have hfree : ∀ piece ∈ dropNamed (named base.pieces).length (text.splitOn '/'), '/' ∉ piece :=
    fun piece hpiece => notMem_of_mem_splitOn ((dropNamed_suffix _ _).subset hpiece)
  have hhead : p.head.isEmpty = false := by
    rw [head, if_pos hp]
    rfl
  refine ⟨ofPieces (trimFillers (dropNamed (named base.pieces).length (text.splitOn '/'))),
    ?_, ?_⟩
  · rw [below?, if_pos (List.isPrefixOf_iff_prefix.2 ⟨rest, h.symm⟩),
      components_of_isAbsolute hbase, List.length_cons, hhead, hpieces]
    rfl
  · have hkept := components_ofPieces_trimFillers hfree
    rwa [hrest] at hkept

/-- A path whose components do not start with those of a directory is not below it. -/
theorem below?_eq_none (h : ¬ base.components <+: p.components) : base.below? p = none := by
  rw [below?, if_neg (mt List.isPrefixOf_iff_prefix.1 h)]

/-- A relative path that is joined to a directory follows its components. -/
theorem components_join_of_head (hp : p.isAbsolute = true) (hq : q.head = []) :
    (p.join q).components = p.components ++ q.components := by
  have hrelative := isAbsolute_eq_false_of_head hq
  rw [components_of_isAbsolute (isAbsolute_join q hp), named_pieces_join p hrelative,
    components_of_isAbsolute hp, components, hq, List.nil_append, ← named, List.cons_append]

end Coverage.Path
