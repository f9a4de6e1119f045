/-
# Texts that are cut at a separator

A list that is cut at every occurrence of a separator gives pieces without it, one more
than there are occurrences; cutting at line feeds reads back the lines that a text was put
together from. A text can be cut at a byte offset when the offset is the
length of a part that it starts with.
-/
import Mathlib.Data.List.Basic

namespace Coverage

/-- No piece of a text has a separator in it. -/
theorem notMem_of_mem_splitOn {α : Type} [DecidableEq α] {separator : α} {text piece : List α}
    (h : piece ∈ text.splitOn separator) : separator ∉ piece := by
  induction text generalizing piece with
  | nil =>
    rw [List.splitOn_nil, List.mem_singleton] at h
    rw [h]
    exact List.not_mem_nil
  | cons c text ih =>
    rw [List.splitOn_cons_eq_if_modifyHead] at h
    obtain ⟨first, rest, hpieces⟩ := List.exists_cons_of_ne_nil (List.splitOn_ne_nil separator text)
    have hrest : ∀ piece ∈ first :: rest, separator ∉ piece := fun piece hpiece =>
      ih (hpieces ▸ hpiece)
    split at h
    · rcases List.mem_cons.1 h with rfl | h
      · exact List.not_mem_nil
      · exact ih h
    · next hother =>
      rw [hpieces, List.modifyHead_cons] at h
      rcases List.mem_cons.1 h with rfl | h
      · rw [List.mem_cons, not_or]
        exact ⟨fun heq => hother (beq_iff_eq.2 heq.symm), hrest first List.mem_cons_self⟩
      · exact hrest piece (List.mem_cons_of_mem _ h)

/-- There is one piece more than there are separators. -/
theorem length_splitOn {α : Type} [DecidableEq α] (separator : α) (text : List α) :
    (text.splitOn separator).length = text.count separator + 1 := by
  induction text with
  | nil => rfl
  | cons c text ih =>
    rw [List.splitOn_cons_eq_if_modifyHead, List.count_cons]
    split
    · rw [List.length_cons, ih]
    · rw [List.length_modifyHead, ih, Nat.add_zero]

/-- Lines that each end with a line feed are read back, with nothing after the last one. -/
theorem splitOn_join_lines {lines : List String} (h : ∀ line ∈ lines, '\n' ∉ line.toList) :
    (String.join (lines.map (· ++ "\n"))).toList.splitOn '\n' =
      lines.map String.toList ++ [[]] := by
  induction lines with
  | nil => rfl
  | cons line lines ih =>
    obtain ⟨hline, hlines⟩ := List.forall_mem_cons.1 h
    have hend : "\n".toList = ['\n'] := rfl
    rw [List.map_cons, String.join_cons, String.toList_append, String.toList_append, hend,
      List.append_assoc, List.singleton_append, List.splitOn_append_cons_self,
      List.splitOn_eq_singleton hline, ih hlines, List.map_cons, List.singleton_append,
      List.cons_append]

/-- The end of a part that a text starts with is a place in the text. -/
theorem exists_pos?_of_append {text : String.Slice} {first rest : String}
    (h : text.copy = first ++ rest) :
    ∃ place, text.pos? ⟨first.utf8ByteSize⟩ = some place ∧ place.Splits first rest := by
  have hvalid : String.Pos.Raw.IsValidForSlice text ⟨first.utf8ByteSize⟩ :=
    String.Pos.Raw.isValidForSlice_iff_exists_append.2 ⟨first, rest, h, rfl⟩
  refine ⟨text.pos ⟨first.utf8ByteSize⟩ hvalid, ?_, ⟨h, rfl⟩⟩
  rw [String.Slice.pos?, dif_pos (String.Pos.Raw.isValidForSlice_eq_true_iff.2 hvalid)]

end Coverage
