/-
# Ignore rules

An ignore file lists patterns of names that a walk leaves out, one a line. A
line that starts with `!` takes names back in, a line that ends with a separator
speaks of directories only, and a line without any other separator speaks of
names in every directory below the file's own. The last line that matches a
name decides.

`Rule.ofLine?` reads one line; a line that holds no pattern, or no proper one,
is passed over. `RuleSet.verdict?` is what a whole file says about a name.
-/
import Coverage.Glob.Match

namespace Coverage

/-- Patterns of ignore files: only a written separator matches one. -/
def Glob.ignoreDialect : Glob.Dialect := ⟨true, true, true⟩

/-- One line of an ignore file. -/
structure Rule where
  glob : Glob
  /-- Whether matching names are taken back in. -/
  isException : Bool
  /-- Whether only directories match. -/
  onlyDirectories : Bool
deriving Repr

namespace Rule

/-- What the marks around a pattern say, and the pattern. -/
structure Marked where
  isException : Bool
  /-- Whether the pattern speaks of the file's own directory only. -/
  isAnchored : Bool
  pattern : List Char

/-- Take the marks off the front of a line. A backslash lets a pattern start
with a mark. -/
def frontMarks : List Char → Marked
  | '\\' :: '!' :: rest => ⟨false, false, '!' :: rest⟩
  | '\\' :: '#' :: rest => ⟨false, false, '#' :: rest⟩
  | '!' :: '/' :: rest => ⟨true, true, rest⟩
  | '!' :: rest => ⟨true, false, rest⟩
  | '/' :: rest => ⟨false, true, rest⟩
  | rest => ⟨false, false, rest⟩

/-- Take the separator that stands for a directory off the end of a pattern. A
backslash in front of it goes with it. -/
def takeDirectoryMark (pattern : List Char) : List Char × Bool :=
  match pattern.reverse with
  | '/' :: '\\' :: rest => (rest.reverse, true)
  | '/' :: rest => (rest.reverse, true)
  | _ => (pattern, false)

/-- The pattern for a path below the file's directory. A pattern without a
separator may match in every directory, and one for anything below a directory
does not match the directory. -/
def widen (isAnchored : Bool) (pattern : List Char) : List Char :=
  let everywhere :=
    if !isAnchored && !pattern.contains '/' && pattern != "**".toList then "**/".toList ++ pattern
    else pattern
  if "/**".toList.isSuffixOf everywhere then everywhere ++ "/*".toList else everywhere

/-- The line as it counts: blanks at the end do not, unless the last one follows
a backslash. -/
def significant (line : List Char) : List Char :=
  if "\\ ".toList.isSuffixOf line then line else Text.trimEnd line

/-- Read a line, if it holds a proper pattern. -/
def ofLine? (line : List Char) : Option Rule :=
  if line.head? = some '#' then none
  else
    let line := significant line
    if line.isEmpty then none
    else
      let marked := frontMarks line
      let (pattern, onlyDirectories) := takeDirectoryMark marked.pattern
      match Glob.readPieces Glob.ignoreDialect (widen marked.isAnchored pattern) with
      | .error _ => none
      | .ok pieces =>
        some ⟨⟨Glob.ignoreDialect, pieces⟩, marked.isException, onlyDirectories⟩

end Rule

/-- What ignore rules say about a name. -/
inductive Verdict where
  | ignored
  | kept
deriving DecidableEq, Repr

/-- The rules of one ignore file, which speak of names below the directory that
holds it. -/
structure RuleSet where
  /-- The text of the directory's path, without a `./` in front. -/
  base : List Char
  /-- The rules in the order of their lines. -/
  rules : List Rule
deriving Repr

namespace RuleSet

/-- A path text without a `./` in front. -/
def withoutDot (text : List Char) : List Char := Text.withoutStart ['.', '/'] text

/-- The text of a path as the rules see it. The base is taken off its front when
the path has more than one name and the base is not the working directory. -/
def candidate (rules : RuleSet) (text : List Char) : List Char :=
  let text := withoutDot text
  if (Path.mk (String.ofList rules.base)).components == [.current] || !text.contains '/' then text
  else
    match Text.afterStart? rules.base text with
    | some rest => Text.withoutStart ['/'] rest
    | none => text

/-- A line without the carriage return at its end. -/
def dropReturn (line : List UInt8) : List UInt8 :=
  if line.getLast? = some 13 then line.dropLast else line

/-- The lines of a file as bytes. Only in front of a line feed is a carriage
return part of the line end. -/
def byteLines (content : List UInt8) : List (List UInt8) :=
  let pieces := content.splitOn 10
  pieces.dropLast.map dropReturn ++ [pieces.getLastD []]

/-- The lines of an ignore file. A byte order mark in front of them is passed
over, and so is all that follows a line that is no text. -/
def lines (content : List UInt8) : List (List Char) :=
  let texts := (byteLines content).map fun line =>
    (String.fromUTF8? ⟨line.toArray⟩).map String.toList
  match (texts.takeWhile Option.isSome).filterMap id with
  | [] => []
  | first :: rest => first.dropWhile (· == '\ufeff') :: rest

/-- The rules in the content of a file that lies in the directory `base`. -/
def read (base : Path) (content : List UInt8) : RuleSet :=
  ⟨withoutDot base.text.toList, (lines content).filterMap Rule.ofLine?⟩

/-- No rules. -/
instance : EmptyCollection RuleSet := ⟨⟨[], []⟩⟩

/-- What the rules say about a path: what the last rule that matches it says. -/
def verdict? (rules : RuleSet) (p : Path) (isDirectory : Bool) : Option Verdict :=
  let text : Path := ⟨String.ofList (rules.candidate p.text.toList)⟩
  (rules.rules.findRev? fun rule =>
    (isDirectory || !rule.onlyDirectories) && rule.glob.matchesPath text).map fun rule =>
    if rule.isException then .kept else .ignored

end RuleSet

end Coverage
