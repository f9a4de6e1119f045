/-
# Plain lines and the text they come from

A reader that stands behind a part of its source has the lines of the rest before it. A
step takes the text up to the next line feed, or all of it when there is none, and stands
behind the line feed then (`next?_of_lineFeed`, `next?_of_last`). Every offset at which it
cuts is the length of a part of the text, so no cut is within a character, and a text that
is put together from lines is read back line by line (`lines_of_intercalate`).
-/
import Coverage.Token
import Coverage.Proofs.Text.Pieces

namespace Coverage

theorem exists_textFrom_of_append {text : String.Slice} {first rest : String}
    (h : text.copy = first ++ rest) :
    ∃ cut, textFrom text first.utf8ByteSize = .ok cut ∧ cut.copy = rest := by
  obtain ⟨place, hplace, hsplits⟩ := exists_pos?_of_append h
  exact ⟨text.sliceFrom place, by rw [textFrom, hplace], hsplits.copy_sliceFrom_eq⟩

theorem exists_textTo_of_append {text : String.Slice} {first rest : String}
    (h : text.copy = first ++ rest) :
    ∃ cut, textTo text first.utf8ByteSize = .ok cut ∧ cut.copy = first := by
  obtain ⟨place, hplace, hsplits⟩ := exists_pos?_of_append h
  exact ⟨text.sliceTo place, by rw [textTo, hplace], hsplits.copy_sliceTo_eq⟩

/-- A line feed is found where the text before it has none. -/
theorem exists_find?_of_append {text : String.Slice} {first rest : String}
    (h : text.copy = first ++ ("\n" ++ rest)) (hfirst : '\n' ∉ first.toList) :
    ∃ place, text.find? '\n' = some place ∧ place.offset.byteIdx = first.utf8ByteSize := by
  obtain ⟨place, -, hsplits⟩ := exists_pos?_of_append h
  refine ⟨place, String.Slice.find?_char_eq_some_iff_splits.2 ⟨first, rest, hsplits, hfirst⟩, ?_⟩
  rw [hsplits.offset_eq_rawEndPos, String.byteIdx_rawEndPos]

theorem find?_eq_none {text : String.Slice} (h : '\n' ∉ text.copy.toList) :
    text.find? '\n' = none := by
  rw [String.Slice.find?_eq_none_iff, String.Slice.contains_char_eq]
  exact decide_eq_false h

namespace LineReader

variable {source before line rest : String}

/-- The last line is what is left. -/
theorem next?_of_last (h : source = before ++ rest) (hrest : '\n' ∉ rest.toList) :
    next? ⟨source, some before.utf8ByteSize⟩ =
      .ok (some ([⟨.text, rest⟩], ⟨source, none⟩)) := by
  obtain ⟨cut, hcut, hcopy⟩ := exists_textFrom_of_append (String.copy_toSlice.trans h)
  simp only [next?, bind, Except.bind, hcut]
  rw [find?_eq_none (hcopy ▸ hrest), hcopy]
  rfl

/-- A line ends before a line feed, and the next one starts behind it. -/
theorem next?_of_lineFeed (h : source = before ++ (line ++ ("\n" ++ rest)))
    (hline : '\n' ∉ line.toList) :
    next? ⟨source, some before.utf8ByteSize⟩ =
      .ok (some ([⟨.text, line⟩], ⟨source, some (before ++ (line ++ "\n")).utf8ByteSize⟩)) := by
  obtain ⟨cut, hcut, hcopy⟩ := exists_textFrom_of_append (String.copy_toSlice.trans h)
  obtain ⟨lineFeed, hfound, hindex⟩ := exists_find?_of_append hcopy hline
  obtain ⟨part, hpart, hpartCopy⟩ := exists_textTo_of_append hcopy
  have hnext : (before ++ (line ++ "\n")).utf8ByteSize =
      before.utf8ByteSize + line.utf8ByteSize + 1 := by
    rw [String.utf8ByteSize_append, String.utf8ByteSize_append, Nat.add_assoc]
    rfl
  simp only [next?, bind, Except.bind, hcut, hfound, hindex, hpart, hpartCopy, hnext]
  rfl

theorem lines_of_ended : lines ⟨source, none⟩ = .ok [] := by
  rw [lines]
  rfl

theorem lines_of_next? {reader later : LineReader} {line : TokenLine}
    (h : reader.next? = .ok (some (line, later))) :
    reader.lines = later.lines.map (line :: ·) := by
  rw [lines]
  split
  · next hnext => cases h.symm.trans hnext
  · next hnext => cases h.symm.trans hnext
  · next hnext =>
    cases h.symm.trans hnext
    rfl

/-- What stands behind the reader is read back as the lines that it is put together from. -/
theorem lines_of_intercalate {pieces : List (List Char)} (hsome : pieces ≠ [])
    (hfree : ∀ piece ∈ pieces, '\n' ∉ piece)
    (h : source = before ++ String.ofList (['\n'].intercalate pieces)) :
    lines ⟨source, some before.utf8ByteSize⟩ =
      .ok (pieces.map fun piece => [⟨.text, String.ofList piece⟩]) := by
  induction pieces generalizing before with
  | nil => exact absurd rfl hsome
  | cons piece rest ih =>
    obtain ⟨hpiece, hrest⟩ := List.forall_mem_cons.1 hfree
    rw [← @String.toList_ofList piece] at hpiece
    cases rest with
    | nil =>
      rw [List.intercalate_singleton] at h
      rw [lines_of_next? (next?_of_last h hpiece), lines_of_ended]
      rfl
    | cons second rest =>
      -- The reader goes on behind the line feed, where the rest is put together alike.
      have hline : source = before ++ (String.ofList piece ++
          ("\n" ++ String.ofList (['\n'].intercalate (second :: rest)))) := by
        rw [h, List.intercalate_cons_cons, String.ofList_append, String.ofList_append,
          String.append_assoc]
      have hbehind : source = before ++ (String.ofList piece ++ "\n") ++
          String.ofList (['\n'].intercalate (second :: rest)) := by
        rw [hline, String.append_assoc, String.append_assoc]
      rw [lines_of_next? (next?_of_lineFeed hline hpiece),
        ih (List.cons_ne_nil _ _) hrest hbehind]
      rfl

theorem lines_ofSource_of_intercalate {pieces : List (List Char)} (hsome : pieces ≠ [])
    (hfree : ∀ piece ∈ pieces, '\n' ∉ piece) :
    (ofSource (String.ofList (['\n'].intercalate pieces))).lines =
      .ok (pieces.map fun piece => [⟨.text, String.ofList piece⟩]) :=
  lines_of_intercalate hsome hfree String.empty_append.symm

/-- The lines of a text are its pieces between line feeds. -/
theorem lines_ofSource (source : String) :
    (ofSource source).lines =
      .ok ((source.toList.splitOn '\n').map fun piece => [⟨.text, String.ofList piece⟩]) := by
  have hsource : String.ofList (['\n'].intercalate (source.toList.splitOn '\n')) = source := by
    rw [List.intercalate_splitOn, String.ofList_toList]
  have hlines := lines_ofSource_of_intercalate (List.splitOn_ne_nil '\n' source.toList)
    fun _ => notMem_of_mem_splitOn
  rwa [hsource] at hlines

end LineReader

/-- The lines of a text are its pieces between line feeds, each as one plain token. -/
theorem plainTokenLines_eq (source : String) :
    plainTokenLines source =
      (source.toList.splitOn '\n').map fun piece => [⟨.text, String.ofList piece⟩] := by
  rw [plainTokenLines, LineReader.lines_ofSource]
  rfl

/-! ## Joining -/

theorem TokenLine.toList_text (line : TokenLine) :
    line.text.toList = line.flatMap (·.text.toList) := by
  rw [TokenLine.text, String.toList_join, List.flatMap_map]

theorem TokenLine.text_singleton (token : Token) : TokenLine.text [token] = token.text := by
  rw [← String.toList_inj, toList_text, List.flatMap_singleton]

theorem TokenLine.lineFeed_notMem_text {line : TokenLine}
    (h : ∀ token ∈ line, '\n' ∉ token.text.toList) : '\n' ∉ line.text.toList := by
  rw [toList_text, List.mem_flatMap]
  rintro ⟨token, htoken, hmem⟩
  exact h token htoken hmem

/-- Joined again, the lines of a text are the text. -/
theorem joinTokenLines_plainTokenLines (source : String) :
    joinTokenLines (plainTokenLines source) = source := by
  have hpieces : (plainTokenLines source).map (fun line => line.text.toList) =
      source.toList.splitOn '\n' := by
    rw [plainTokenLines_eq, List.map_map]
    apply List.map_id''
    intro piece
    rw [Function.comp_apply, TokenLine.text_singleton, String.toList_ofList]
  rw [joinTokenLines, hpieces, List.intercalate_splitOn, String.ofList_toList]

/-- Lines without line feeds are read back from their text, each as one token. -/
theorem lines_joinTokenLines {lines : List TokenLine} (hsome : lines ≠ [])
    (hfree : ∀ line ∈ lines, ∀ token ∈ line, '\n' ∉ token.text.toList) :
    (LineReader.ofSource (joinTokenLines lines)).lines =
      .ok (lines.map fun line => [⟨.text, line.text⟩]) := by
  have hpieces : ∀ piece ∈ lines.map fun line => line.text.toList, '\n' ∉ piece := by
    intro piece hpiece
    obtain ⟨line, hline, rfl⟩ := List.mem_map.1 hpiece
    exact TokenLine.lineFeed_notMem_text (hfree line hline)
  have hread := LineReader.lines_ofSource_of_intercalate
    (fun hnil => hsome (List.map_eq_nil_iff.1 hnil)) hpieces
  rw [List.map_map] at hread
  rw [joinTokenLines, hread]
  congr 1
  apply List.map_congr_left
  intro line _
  rw [Function.comp_apply, String.ofList_toList]

/-- A text is read without a fault, into one line more than it has line feeds, and each
line is one token without any. The lines joined are the text. Lines of any tokens without
line feeds are read back from their text with the same texts, one for one. -/
theorem plain_lines_invert_joining :
    (∀ source : String,
      (LineReader.ofSource source).lines = .ok (plainTokenLines source) ∧
      (plainTokenLines source).length = source.toList.count '\n' + 1 ∧
      (∀ line ∈ plainTokenLines source,
        ∃ text : String, line = [⟨.text, text⟩] ∧ '\n' ∉ text.toList) ∧
      joinTokenLines (plainTokenLines source) = source) ∧
    (∀ lines : List TokenLine, lines ≠ [] →
      (∀ line ∈ lines, ∀ token ∈ line, '\n' ∉ token.text.toList) →
      (LineReader.ofSource (joinTokenLines lines)).lines =
        .ok (lines.map fun line => [⟨.text, line.text⟩])) := by
  refine ⟨fun source => ⟨?_, ?_, ?_, joinTokenLines_plainTokenLines source⟩,
    fun lines => lines_joinTokenLines⟩
  · rw [LineReader.lines_ofSource, plainTokenLines_eq]
  · rw [plainTokenLines_eq, List.length_map, length_splitOn]
  · intro line hline
    rw [plainTokenLines_eq] at hline
    obtain ⟨piece, hpiece, rfl⟩ := List.mem_map.1 hline
    refine ⟨String.ofList piece, rfl, ?_⟩
    rw [String.toList_ofList]
    exact notMem_of_mem_splitOn hpiece

/-- A reader that stands within a character meets a fault. -/
example : (LineReader.next? ⟨"é", some 1⟩).toOption.isNone = true := by decide +kernel

namespace Accented

/-- Two lines of several tokens, with a carriage return and characters of more than one
byte, around one without tokens. -/
def tokenLines : List TokenLine :=
  [[⟨.keyword, "é"⟩, ⟨.text, ""⟩, ⟨.string, "✓\r"⟩], [], [⟨.name, "ü"⟩]]

/-- The three lines come back as written, each as one plain token. -/
theorem tokenLines_are_read_back :
    (tokenLines ≠ [] ∧ ∀ line ∈ tokenLines, ∀ token ∈ line, '\n' ∉ token.text.toList) ∧
      (LineReader.ofSource (joinTokenLines tokenLines)).lines =
        .ok [[⟨.text, "é✓\r"⟩], [⟨.text, ""⟩], [⟨.text, "ü"⟩]] := by
  obtain ⟨-, hread⟩ := plain_lines_invert_joining
  have hsome : tokenLines ≠ [] := List.cons_ne_nil _ _
  have hfree : ∀ line ∈ tokenLines, ∀ token ∈ line, '\n' ∉ token.text.toList := by
    decide +kernel
  exact ⟨⟨hsome, hfree⟩, hread tokenLines hsome hfree⟩

end Accented

end Coverage
