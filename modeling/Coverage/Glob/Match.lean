/-
# Matching a glob pattern

A pattern is matched against the bytes of a whole path. What a piece can take
off the front of a text is said by the rests that it can leave, and a list of
pieces hands the rests of each piece to the next. A pattern matches when one of
its rests is empty.

All rests of a text are suffixes of it, and repeated ones are dropped after
each piece, so the work is bounded however many stars a pattern has.
-/
import Coverage.Glob.Pattern
import Coverage.Text.Basic
import Coverage.Path.Basic

namespace Coverage

namespace Glob

/-- The byte that separates names. -/
def separator : UInt8 := 47

/-- Every suffix of a text, the text itself first. -/
def suffixes : List UInt8 → List (List UInt8)
  | [] => [[]]
  | b :: text => (b :: text) :: suffixes text

/-- The suffixes of a text up to the first one that starts with a separator. -/
def suffixesInName : List UInt8 → List (List UInt8)
  | [] => [[]]
  | b :: text => (b :: text) :: if b = separator then [] else suffixesInName text

/-- What is left after each separator of a text. -/
def afterSeparators : List UInt8 → List (List UInt8)
  | [] => []
  | b :: text => if b = separator then text :: afterSeparators text else afterSeparators text

/-- The runs of bytes that a range of characters stands for. A range of one
character stands for the bytes of that character; another one runs from the last
byte of its first character to the first byte of its last character, and holds
the other bytes of both as well. -/
def byteRanges (first last : Char) : List (UInt8 × UInt8) :=
  let lows := String.utf8EncodeChar first
  let highs := String.utf8EncodeChar last
  if first = last then lows.map fun b => (b, b)
  else
    lows.dropLast.map (fun b => (b, b)) ++ [(lows.getLastD 0, highs.headD 0)] ++
      highs.tail.map fun b => (b, b)

/-- Whether a byte lies in one of the ranges. -/
def inRanges (ranges : List (Char × Char)) (b : UInt8) : Bool :=
  ranges.any fun range => (byteRanges range.1 range.2).any fun run => run.1 ≤ b && b ≤ run.2

mutual

/-- What is left of a text when a piece is taken off its front, in every way. -/
def Piece.rests (dialect : Dialect) : Piece → List UInt8 → List (List UInt8)
  | .literal c, text => (Text.afterStart? (String.utf8EncodeChar c) text).toList
  | .anyByte, text =>
    match text with
    | [] => []
    | b :: rest => if dialect.separatorIsLiteral && b == separator then [] else [rest]
  | .anyRun, text => if dialect.separatorIsLiteral then suffixesInName text else suffixes text
  | .leadingDirectories, text => text :: afterSeparators text
  | .anythingBelow, text =>
    match text with
    | [] => []
    | b :: rest => if b = separator then suffixes rest else []
  | .innerDirectories, text =>
    match text with
    | [] => []
    | b :: rest => if b = separator then rest :: afterSeparators rest else []
  | .oneOf negated ranges, text =>
    match text with
    | [] => []
    | b :: rest => if inRanges ranges b != negated then [rest] else []
  | .group [], text => [text]
  | .group (branch :: branches), text => branchRests dialect (branch :: branches) text

/-- What is left of the texts when all pieces are taken off, in every way. -/
def pieceRests (dialect : Dialect) : List Piece → List (List UInt8) → List (List UInt8)
  | [], texts => texts
  | piece :: pieces, texts =>
    pieceRests dialect pieces (texts.flatMap fun text => piece.rests dialect text).eraseDups

/-- What is left of a text when one of the branches is taken off its front. -/
def branchRests (dialect : Dialect) : List (List Piece) → List UInt8 → List (List UInt8)
  | [], _ => []
  | branch :: branches, text =>
    pieceRests dialect branch [text] ++ branchRests dialect branches text

end

/-- Whether the pieces match a whole text. Directories in front, with nothing
after them, match everything. -/
def matchesPieces (dialect : Dialect) (pieces : List Piece) (text : List UInt8) : Bool :=
  match pieces with
  | [.leadingDirectories] => true
  | pieces => (pieceRests dialect pieces [text]).any List.isEmpty

end Glob

/-- Whether a pattern matches a path, byte by byte. -/
def Glob.matchesPath (glob : Glob) (p : Path) : Bool :=
  Glob.matchesPieces glob.dialect glob.pieces (Text.bytes p.text)

end Coverage
