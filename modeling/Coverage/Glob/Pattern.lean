/-
# Glob patterns

These are the patterns that the library has of its own: ignore files are written
in them, and a search can be given them. A glob pattern is a list of pieces. `?`
stands for one byte, `*` for any run of bytes, `[..]` for one byte of a class and
`{a,b}` for one of several patterns. Two stars between separators stand for any
number of directories, in one of three forms that depend on where they stand:
`**/` in front, `/**` at the end and `/**/` between names. Two stars anywhere
else are two single stars.

`Glob.read` reads a pattern. Which of two faults is reported is fixed by the
order of reading: the first one that is met, and an unclosed group last.
-/

namespace Coverage

namespace Glob

/-- A piece of a pattern. -/
inductive Piece where
  /-- The character itself. -/
  | literal (c : Char)
  /-- Any one byte. -/
  | anyByte
  /-- Any run of bytes. -/
  | anyRun
  /-- Any directories, or none, in front of a name. -/
  | leadingDirectories
  /-- Anything below a directory. -/
  | anythingBelow
  /-- A separator, or any directories between two separators. -/
  | innerDirectories
  /-- One byte that lies in a range, or that lies in none. -/
  | oneOf (negated : Bool) (ranges : List (Char × Char))
  /-- One of several patterns. Without any it stands for nothing. -/
  | group (branches : List (List Piece))
deriving Repr

/-- How patterns are read and matched. -/
structure Dialect where
  /-- Whether only a written separator matches a separator. -/
  separatorIsLiteral : Bool
  /-- Whether a backslash makes the next character literal. -/
  backslashEscapes : Bool
  /-- Whether a bracket that is never closed is a literal bracket. -/
  openBracketIsLiteral : Bool
deriving DecidableEq, Repr

/-- What makes a text no pattern. -/
inductive Fault where
  | unclosedClass
  | invalidRange (first last : Char)
  | unopenedGroup
  | unclosedGroup
  | danglingEscape
deriving DecidableEq, Repr

/-- The wording of a fault. -/
def Fault.message : Fault → String
  | unclosedClass => "unclosed character class; missing ']'"
  | invalidRange first last =>
    String.ofList ("invalid range; '".toList ++ first :: "' > '".toList ++ [last, '\''])
  | unopenedGroup =>
    "unopened alternate group; missing '\x7b' (maybe escape '\x7d' with '[\x7d]'?)"
  | unclosedGroup =>
    "unclosed alternate group; missing '\x7d' (maybe escape '\x7b' with '[\x7b]'?)"
  | danglingEscape => "dangling '\\'"

/-- The ranges of a class, from its first range on. A dash after a range makes
the next character its new end; a dash at the end is a dash. -/
def rangesFrom (current : Char × Char) (dashed : Bool) : List Char → Except Fault (List (Char × Char))
  | [] => .ok (if dashed then [current, ('-', '-')] else [current])
  | c :: rest =>
    if dashed then
      if c < current.1 then .error (.invalidRange current.1 c)
      else rangesFrom (current.1, c) false rest
    else if c = '-' then rangesFrom current true rest
    else (rangesFrom (c, c) false rest).map (current :: ·)

/-- The ranges of a class body. -/
def ranges : List Char → Except Fault (List (Char × Char))
  | [] => .ok []
  | c :: rest => rangesFrom (c, c) false rest

/-- A class as it is written after its opening bracket. -/
structure ClassText where
  negated : Bool
  body : List Char
  /-- What follows the closing bracket, when there is one. -/
  rest : Option (List Char)

/-- The body of a class and what follows it. A closing bracket that comes first
belongs to the body. -/
def classBody : List Char → List Char × Option (List Char)
  | [] => ([], none)
  | c :: rest => (c :: rest.takeWhile (· ≠ ']'), (rest.dropWhile (· ≠ ']')).tail?)

/-- Split the text after an opening bracket. -/
def classText : List Char → ClassText
  | '!' :: rest => ⟨true, (classBody rest).1, (classBody rest).2⟩
  | '^' :: rest => ⟨true, (classBody rest).1, (classBody rest).2⟩
  | text => ⟨false, (classBody text).1, (classBody text).2⟩

theorem classBody_rest_length {text rest : List Char} (h : (classBody text).2 = some rest) :
    rest.length < text.length := by
  cases text with
  | nil => simp [classBody] at h
  | cons c text =>
    have hd : (text.dropWhile (· ≠ ']')).length ≤ text.length := (List.dropWhile_sublist _).length_le
    simp only [classBody] at h
    cases hc : text.dropWhile (· ≠ ']') with
    | nil => rw [hc] at h; simp at h
    | cons d more =>
      rw [hc] at hd h
      simp only [List.tail?_cons, Option.some.injEq] at h
      subst h
      simp only [List.length_cons] at hd ⊢
      omega

/-- What follows a class is shorter than the text after its opening bracket. -/
theorem classText_rest_length {text rest : List Char} (h : (classText text).rest = some rest) :
    rest.length < text.length := by
  unfold classText at h
  split at h
  · have := classBody_rest_length h
    simp only [List.length_cons]
    omega
  · have := classBody_rest_length h
    simp only [List.length_cons]
    omega
  · exact classBody_rest_length h

/-- A group that is still open: the pieces before it and its finished branches,
both last first. -/
structure OpenGroup where
  before : List Piece
  branches : List (List Piece)

/-- How far a pattern is read. -/
structure Progress where
  /-- The pieces of the branch that is being read, last first. -/
  current : List Piece
  /-- The open groups, innermost first. -/
  groups : List OpenGroup
  /-- The character that was read last. -/
  previous : Option Char
  /-- Whether an opening bracket that is never closed was met. -/
  bracketsAreLiteral : Bool

namespace Progress

/-- Add a piece after reading `c`. -/
def push (state : Progress) (piece : Piece) (c : Char) : Progress :=
  { state with current := piece :: state.current, previous := some c }

/-- Take a pair of stars as two single ones. -/
def pushStars (state : Progress) : Progress :=
  { state with current := .anyRun :: .anyRun :: state.current, previous := some '*' }

/-- Whether a piece stands for nothing. -/
def isVoid : Piece → Bool
  | .group [] => true
  | _ => false

/-- The piece of a group. Branches that stand for nothing are left out. -/
def closeGroup (branches : List (List Piece)) : Piece :=
  .group (branches.filter fun branch => !branch.all isVoid)

/-- Put a piece for directories in the place of the separator in front of a pair
of stars. Directories in front, or anything below, stay what they are. -/
def replaceLast (state : Progress) (piece : Piece) (c : Char) : Progress :=
  match state.current with
  | .leadingDirectories :: _ => { state with previous := some c }
  | .anythingBelow :: _ => { state with previous := some c }
  | _ :: before => { state with current := piece :: before, previous := some c }
  | [] => { state with current := [piece], previous := some c }

/-- Read what follows a pair of stars, as far as it belongs to them. The flag
says whether a separator after them was taken. -/
def pushDoubleStar (state : Progress) (rest : List Char) : Progress × Bool :=
  let separatorNext := rest.head? = some '/'
  if state.current.isEmpty then
    if rest.isEmpty then (state.push .leadingDirectories '*', false)
    else if separatorNext then (state.push .leadingDirectories '/', true)
    else (state.pushStars, false)
  else if state.previous ≠ some '/' ∧
      (state.groups.isEmpty ∨ (state.previous ≠ some ',' ∧ state.previous ≠ some '\x7b')) then
    (state.pushStars, false)
  else if rest.isEmpty then (state.replaceLast .anythingBelow '*', false)
  else if !state.groups.isEmpty ∧ (rest.head? = some ',' ∨ rest.head? = some '\x7d') then
    (state.replaceLast .anythingBelow '*', false)
  else if separatorNext then (state.replaceLast .innerDirectories '/', true)
  else (state.pushStars, false)

/-- Begin a group. -/
def openGroup (state : Progress) : Progress :=
  { state with
    current := [], groups := ⟨state.current, []⟩ :: state.groups, previous := some '\x7b' }

/-- Begin the next branch of the innermost group; outside of groups a comma is a
character like any other. -/
def nextBranch (state : Progress) : Progress :=
  match state.groups with
  | [] => state.push (.literal ',') ','
  | group :: outer =>
    { state with
      current := []
      groups := { group with branches := state.current.reverse :: group.branches } :: outer
      previous := some ',' }

/-- End the innermost group. -/
def endGroup (state : Progress) : Except Fault Progress :=
  match state.groups with
  | [] => .error .unopenedGroup
  | group :: outer =>
    .ok { state with
      current := closeGroup (state.current.reverse :: group.branches).reverse :: group.before
      groups := outer
      previous := some '\x7d' }

end Progress

/-- Read the rest of a pattern. -/
def readFrom (dialect : Dialect) (state : Progress) : List Char → Except Fault Progress
  | [] => .ok state
  | '?' :: rest => readFrom dialect (state.push .anyByte '?') rest
  | '*' :: '*' :: rest =>
    let (state, taken) := state.pushDoubleStar rest
    if taken then readFrom dialect state rest.tail else readFrom dialect state rest
  | '*' :: rest => readFrom dialect (state.push .anyRun '*') rest
  | '[' :: rest =>
    if state.bracketsAreLiteral then readFrom dialect (state.push (.literal '[') '[') rest
    else
      let text := classText rest
      match ranges text.body with
      | .error fault => .error fault
      | .ok ranges =>
        match h : text.rest with
        | some after =>
          have : after.length < rest.length := classText_rest_length h
          readFrom dialect (state.push (.oneOf text.negated ranges) ']') after
        | none =>
          if dialect.openBracketIsLiteral then
            readFrom dialect { state.push (.literal '[') '[' with bracketsAreLiteral := true } rest
          else .error .unclosedClass
  | '\x7b' :: rest => readFrom dialect state.openGroup rest
  | '\x7d' :: rest =>
    match state.endGroup with
    | .error fault => .error fault
    | .ok state => readFrom dialect state rest
  | ',' :: rest => readFrom dialect state.nextBranch rest
  | '\\' :: rest =>
    if dialect.backslashEscapes then
      match rest with
      | [] => .error .danglingEscape
      | c :: rest => readFrom dialect (state.push (.literal c) c) rest
    else readFrom dialect (state.push (.literal '\\') '\\') rest
  | c :: rest => readFrom dialect (state.push (.literal c) c) rest
termination_by text => text.length
decreasing_by all_goals simp_all <;> omega

/-- The pieces of a pattern. -/
def readPieces (dialect : Dialect) (text : List Char) : Except Fault (List Piece) :=
  match readFrom dialect ⟨[], [], none, false⟩ text with
  | .error fault => .error fault
  | .ok state =>
    if state.groups.isEmpty then .ok state.current.reverse else .error .unclosedGroup

end Glob

/-- A pattern that was read, with the way it is matched. -/
structure Glob where
  dialect : Glob.Dialect
  pieces : List Glob.Piece
deriving Repr

/-- Read a pattern. -/
def Glob.read (dialect : Dialect) (text : String) : Except Fault Glob :=
  (readPieces dialect text.toList).map (⟨dialect, ·⟩)

end Coverage
