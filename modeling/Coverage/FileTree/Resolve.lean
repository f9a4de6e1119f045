/-
# Real locations

Following a path through a tree goes piece by piece: a name leads to what lies
there, `..` to the directory above, and a link to where its target leads from
the directory that holds it. Each piece, an empty one or a dot included, can
only be taken from a directory. `FileTree.realLocation` is the place that is
reached in the end, if there is one.

Links may lead to links, and in circles; at most `linkLimit` of them are
followed, so that the way is always finite. `realLocation` is stated by
recursion on the links left, with a walk by recursion on the pieces inside it.
-/
import Coverage.FileTree.Basic

namespace Coverage.FileTree

/-- How many links one path may lead through. -/
def linkLimit : Nat := 40

/-- How far the pieces of a path lead without following a link. -/
inductive Way where
  /-- All pieces were taken. -/
  | arrived (location : Location)
  /-- A link with the given target lies in the directory, and more pieces follow. -/
  | atLink (directory : Location) (target : Path) (rest : List (List Char))
  /-- A piece leads nowhere. -/
  | lost
deriving DecidableEq, Repr

/-- Take pieces from a location up to the first link. -/
def follow (tree : FileTree) : Location → List (List Char) → Way
  | location, [] => .arrived location
  | location, piece :: rest =>
    if tree.isDirectory location then
      match Component.ofPiece? piece with
      | some .parent => tree.follow location.dropLast rest
      | some (.normal name) =>
        match tree.entryAt (location ++ [name]) with
        | some (.link target) => .atLink location target rest
        | some _ => tree.follow (location ++ [name]) rest
        | none => .lost
      | _ => tree.follow location rest
    else .lost

/-- Where the pieces lead from a location when at most the given number of links
is followed. -/
def resolveFrom (tree : FileTree) : Nat → Location → List (List Char) → Option Location
  | links, location, pieces =>
    match tree.follow location pieces with
    | .arrived place => some place
    | .lost => none
    | .atLink directory target rest =>
      match links with
      | 0 => none
      | links + 1 =>
        if target.text.isEmpty then none
        else tree.resolveFrom links (if target.isAbsolute then [] else directory) (target.pieces ++ rest)

/-- The real location that a path leads to, seen from a working directory. The
empty path leads nowhere. -/
def realLocation (tree : FileTree) (workingDirectory : Location) (p : Path) : Option Location :=
  if p.text.isEmpty then none
  else tree.resolveFrom linkLimit (if p.isAbsolute then [] else workingDirectory) p.pieces

end Coverage.FileTree
