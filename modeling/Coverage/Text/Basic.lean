/-
# Texts, character by character

Texts are compared by their UTF-8 encodings, byte by byte; a text comes before
every longer text that it begins. What is left behind a given start, and what is
left without the blanks at the end, are parts of the text as it was written.
-/

namespace Coverage.Text

/-! ## Bytes -/

/-- The UTF-8 encoding of a text as a list of bytes, character by character. -/
def bytes (s : String) : List UInt8 := s.toList.flatMap String.utf8EncodeChar

/-- Compare two texts byte by byte. -/
def compareBytes (s t : String) : Ordering := compare (bytes s) (bytes t)

/-! ## Starts -/

/-- What is left of a text after a given start, if it starts so. -/
def afterStart? {α : Type} [DecidableEq α] : List α → List α → Option (List α)
  | [], text => some text
  | _ :: _, [] => none
  | a :: start, b :: text => if a = b then afterStart? start text else none

/-- What is left of a text after a given start; the text itself when it starts otherwise. -/
def withoutStart {α : Type} [DecidableEq α] (start text : List α) : List α :=
  (afterStart? start text).getD text

/-! ## Blanks -/

/-- The ranges of blank characters, those with the property White_Space, in ascending order. -/
def blankRanges : List (Nat × Nat) :=
  [(0x9, 0xd), (0x20, 0x20), (0x85, 0x85), (0xa0, 0xa0), (0x1680, 0x1680), (0x2000, 0x200a),
    (0x2028, 0x2029), (0x202f, 0x202f), (0x205f, 0x205f), (0x3000, 0x3000)]

/-- Whether a character is blank. -/
def isBlank (c : Char) : Bool :=
  blankRanges.any fun range => range.1 ≤ c.toNat && c.toNat ≤ range.2

/-- A text without the blanks at its end. -/
def trimEnd (text : List Char) : List Char := (text.reverse.dropWhile isBlank).reverse

end Coverage.Text
