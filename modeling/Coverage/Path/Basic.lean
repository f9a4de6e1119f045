/-
# File names

A `Path` is the text of a file name. Two texts that differ only in repeated or
trailing separators, or in inner `.` pieces, have the same components and name
the same file; tables are ordered and looked up by components, while a message
or an answer shows the text as it was written.

This module has the components, their order, joining, and taking a leading
directory off. No file system is consulted.
-/

namespace Coverage

/-- What one step of a file name means. -/
inductive Component where
  | root
  | current
  | parent
  | normal (name : String)
deriving DecidableEq, Repr

namespace Component

/-- The kinds of components in their order. -/
def rank : Component → Nat
  | root => 0
  | current => 1
  | parent => 2
  | normal _ => 3

/-- The name that a component carries. -/
def name : Component → String
  | normal name => name
  | _ => ""

/-- Components are ordered by kind, named ones then by name. -/
instance : Ord Component := ⟨compareLex (compareOn rank) (compareOn name)⟩

instance : Std.TransOrd Component :=
  inferInstanceAs (Std.TransCmp (compareLex (compareOn rank) (compareOn name)))

instance : Std.LawfulEqOrd Component where
  compare_self :=
    (inferInstance : Std.ReflCmp (compareLex (compareOn rank) (compareOn name))).compare_self
  eq_of_compare {a b} h := by
    obtain ⟨h₁, h₂⟩ := compareLex_eq_eq.1 h
    have hr : a.rank = b.rank := Std.LawfulEqOrd.eq_of_compare h₁
    have hn : a.name = b.name := Std.LawfulEqOrd.eq_of_compare h₂
    cases a <;> cases b <;> simp_all [rank, name]

/-- The component that a piece between separators names. An empty piece and a
single dot name none. -/
def ofPiece? : List Char → Option Component
  | [] => none
  | ['.'] => none
  | ['.', '.'] => some parent
  | piece => some (normal (String.ofList piece))

end Component

/-- The text of a file name. -/
structure Path where
  text : String
deriving DecidableEq, Repr, Inhabited

namespace Path

/-- The pieces of the text between separators. -/
def pieces (p : Path) : List (List Char) := p.text.toList.splitOn '/'

/-- The path whose text has the given pieces. -/
def ofPieces (pieces : List (List Char)) : Path := ⟨String.ofList (['/'].intercalate pieces)⟩

/-- Whether the text starts at the root. -/
def isAbsolute (p : Path) : Bool := p.text.toList.head? == some '/'

/-- The component that only the start of a text can name: the root, or the
directory itself when the text is relative and its first piece is a dot. -/
def head (p : Path) : List Component :=
  if p.isAbsolute then [.root] else if p.pieces.head? = some ['.'] then [.current] else []

/-- What the file name means, step by step. -/
def components (p : Path) : List Component := p.head ++ p.pieces.filterMap Component.ofPiece?

/-- Paths are ordered by their components. -/
instance : Ord Path := ⟨compareOn components⟩

instance : Std.TransOrd Path := inferInstanceAs (Std.TransCmp (compareOn components))

/-- `q` seen from the directory `p`; an absolute `q` stands for itself. -/
def join (p q : Path) : Path :=
  if q.isAbsolute then q
  else if p.text.toList.getLast?.all (· == '/') then ⟨p.text ++ q.text⟩
  else ⟨p.text ++ "/" ++ q.text⟩

/-- Whether a piece names no component. -/
def isFiller (piece : List Char) : Bool := (Component.ofPiece? piece).isNone

/-- Drop the first `n` pieces that name a component, and the fillers among them. -/
def dropNamed : Nat → List (List Char) → List (List Char)
  | 0, pieces => pieces
  | _ + 1, [] => []
  | n + 1, piece :: rest =>
    if isFiller piece then dropNamed (n + 1) rest else dropNamed n rest

/-- Drop fillers from both ends. -/
def trimFillers (pieces : List (List Char)) : List (List Char) :=
  ((pieces.dropWhile isFiller).reverse.dropWhile isFiller).reverse

/-- The path without the fillers at its end; what stands at the head of the text stays. -/
def trimEnd (p : Path) : Path :=
  let pieces := p.pieces.take 1 ++ ((p.pieces.drop 1).reverse.dropWhile isFiller).reverse
  if pieces = [[]] ∧ p.isAbsolute then ⟨"/"⟩ else ofPieces pieces

/-- The text of `p` below the directory `base`: what is left of it, as written,
when the components of `base` are taken off its front. A base without
components takes nothing off, and only the end is trimmed. -/
def below? (base p : Path) : Option Path :=
  if base.components.isPrefixOf p.components then
    match base.components.length with
    | 0 => some p.trimEnd
    | n + 1 =>
      let rest := if p.head.isEmpty then dropNamed (n + 1) p.pieces else dropNamed n (p.pieces.drop 1)
      some (ofPieces (trimFillers rest))
  else none

/-- The names that stay when each `..` takes back the name before it. -/
def lexicalNames (components : List Component) : List String :=
  (components.foldl
    (fun kept component =>
      match component with
      | .parent => kept.drop 1
      | .normal name => name :: kept
      | _ => kept) []).reverse

/-- The absolute path of the given names. -/
def ofNames (names : List String) : Path := ⟨"/" ++ "/".intercalate names⟩

/-- The lexical normal form: no empty piece, no `.` and no `..`. At the root a
`..` has nothing to take back and is dropped. -/
def normal (p : Path) : Path :=
  let names := lexicalNames p.components
  if p.isAbsolute then ofNames names else ⟨"/".intercalate names⟩

end Path

end Coverage
