/-
# Token lines of a source text

A reporter may split each line of a source text into classified tokens, for
highlighting. The plain split makes one token of every line. Lines end at a line
feed only, so a carriage return stays with its line, and a text that ends in a
line feed has a last, empty line. Joining the lines gives the text back.

A `LineReader` makes the plain split one line at a time. It keeps a byte offset
into the text, and a cut at an offset within a character is a fault.
-/

namespace Coverage

/-- The classes of tokens. -/
inductive TokenClass where
  | comment
  | keyword
  | name
  | number
  | operator
  | string
  | whitespace
  | text
deriving DecidableEq, Repr

namespace TokenClass

/-- All classes, in their order. -/
def all : List TokenClass :=
  [comment, keyword, name, number, operator, string, whitespace, text]

/-- The short code of a class, used as a style class in rendered reports. -/
def code : TokenClass → String
  | comment => "com"
  | keyword => "key"
  | name => "nam"
  | number => "num"
  | operator => "op"
  | string => "str"
  | whitespace => "ws"
  | text => "txt"

/-- The name of a class in full. -/
def title : TokenClass → String
  | comment => "Comment"
  | keyword => "Keyword"
  | name => "Name"
  | number => "Number"
  | operator => "Operator"
  | string => "String"
  | whitespace => "Whitespace"
  | text => "Text"

/-- The class that has a given code. -/
def ofCode? (s : String) : Option TokenClass := all.find? (·.code = s)

/-- The position of a class among all classes. -/
def rank (c : TokenClass) : Nat := all.idxOf c

/-- Classes are ordered as they are listed. -/
instance : Ord TokenClass := ⟨compareOn rank⟩

end TokenClass

/-- One classified run of source text. -/
structure Token where
  kind : TokenClass
  text : String
deriving DecidableEq, Repr

/-- The tokens of one line, without the line end. -/
abbrev TokenLine := List Token

/-- The text of a line. -/
def TokenLine.text (line : TokenLine) : String := String.join (line.map (·.text))

/-! ## The plain split -/

/-- A byte offset at which a text cannot be cut: one that is not between two characters. -/
structure CutFault where
  offset : Nat
deriving DecidableEq, Repr

/-- The part of a text from a byte offset on. -/
def textFrom (text : String.Slice) (offset : Nat) : Except CutFault String.Slice :=
  match text.pos? ⟨offset⟩ with
  | some place => .ok (text.sliceFrom place)
  | none => .error ⟨offset⟩

/-- The part of a text up to a byte offset. -/
def textTo (text : String.Slice) (offset : Nat) : Except CutFault String.Slice :=
  match text.pos? ⟨offset⟩ with
  | some place => .ok (text.sliceTo place)
  | none => .error ⟨offset⟩

theorem le_of_textFrom {text rest : String.Slice} {offset : Nat}
    (h : textFrom text offset = .ok rest) : offset ≤ text.utf8ByteSize := by
  rw [textFrom] at h
  split at h
  · next place hplace =>
    rw [String.Slice.pos?] at hplace
    split at hplace
    · next hvalid => exact (String.Pos.Raw.isValidForSlice_eq_true_iff.1 hvalid).le_utf8ByteSize
    · cases hplace
  · cases h

/-- A source text that is read line by line. -/
structure LineReader where
  source : String
  /-- The byte offset at which the next line starts; none after the last line. -/
  start : Option Nat
deriving DecidableEq, Repr

namespace LineReader

/-- The reader of a text, before the first line. -/
def ofSource (source : String) : LineReader := ⟨source, some 0⟩

/-- The next line as one token of class `text`, and the reader after it. -/
def next? (reader : LineReader) : Except CutFault (Option (TokenLine × LineReader)) :=
  match reader.start with
  | none => .ok none
  | some start => do
    let rest ← textFrom reader.source.toSlice start
    match rest.find? '\n' with
    | some lineFeed =>
      let index := lineFeed.offset.byteIdx
      let line ← textTo rest index
      return some ([⟨.text, line.copy⟩], { reader with start := some (start + index + 1) })
    | none => return some ([⟨.text, rest.copy⟩], { reader with start := none })

/-- The number of bytes that are left, with one for the end. -/
def remaining (reader : LineReader) : Nat :=
  match reader.start with
  | none => 0
  | some start => reader.source.utf8ByteSize + 1 - start

theorem remaining_lt {reader later : LineReader} {line : TokenLine}
    (h : reader.next? = .ok (some (line, later))) : later.remaining < reader.remaining := by
  obtain ⟨source, start?⟩ := reader
  cases start? with
  | none => cases h
  | some start =>
    simp only [next?, bind, Except.bind] at h
    split at h
    · cases h
    · next rest hrest =>
      have hstart : start ≤ source.utf8ByteSize := by simpa using le_of_textFrom hrest
      split at h
      · split at h
        · cases h
        · cases h
          simp only [remaining]
          omega
      · cases h
        simp only [remaining]
        omega

/-- All lines that are left. -/
def lines (reader : LineReader) : Except CutFault (List TokenLine) :=
  match _h : reader.next? with
  | .error fault => .error fault
  | .ok none => .ok []
  | .ok (some (line, later)) => later.lines.map (line :: ·)
termination_by reader.remaining
decreasing_by exact remaining_lt _h

end LineReader

/-- One token of class `text` for every line of a source text. A reader of a whole
text meets no fault. -/
def plainTokenLines (source : String) : List TokenLine :=
  (LineReader.ofSource source).lines.toOption.getD []

/-- The source text of token lines: the line texts with a line feed between them. -/
def joinTokenLines (lines : List TokenLine) : String :=
  String.ofList (['\n'].intercalate (lines.map fun line => (TokenLine.text line).toList))

end Coverage
