import RowScope.Text.Basic

/-!
# Paths

A path is where it starts and the names on the way. Names are what stands
between slashes; empty ones and single dots lead nowhere and are left out. Two
dots lead back up, but as long as it is not known where a path starts they have
to stay.

A path that starts with exactly two slashes is kept apart from one that starts
with a single slash, because some systems give it a meaning of its own. It loses
the second slash as soon as it becomes a place in the file system.

## Main definitions

* `Path`: A start and names.
* `Path.parse`: The path that a text writes.
* `Path.text`: The text of a path.
* `Path.place`: The names from the root, two dots followed.
* `Path.placeText`: The text of a place.
-/

namespace RowScope

/-- Where a path starts. -/
inductive PathStart
  /-- Wherever one is. -/
  | here
  | root
  /-- Two slashes. -/
  | doubleRoot
deriving DecidableEq, Repr

/-- A start and the names from there. -/
structure Path where
  start : PathStart
  names : List Text
deriving DecidableEq, Repr

namespace Path

/-- The slash. -/
def slash : CodePoint := CodePoint.ofChar '/'

/-- The single dot. -/
def dot : Text := Text.ofString "."

/-- The two dots. -/
def dots : Text := Text.ofString ".."

/-- The pieces of a text between its slashes; `piece` is the start of the first
one, reversed. -/
def piecesFrom (piece : Text) : Text → List Text
  | [] => [piece.reverse]
  | c :: rest =>
    if c = slash then piece.reverse :: piecesFrom [] rest else piecesFrom (c :: piece) rest

/-- The pieces of a text between its slashes. -/
def pieces (t : Text) : List Text := piecesFrom [] t

/-- Names that lead somewhere. -/
def isName (piece : Text) : Bool :=
  !piece.isEmpty && piece != dot

/-- Where a text starts, by the number of its leading slashes. -/
def startOf (t : Text) : PathStart :=
  match (t.takeWhile (· == slash)).length with
  | 0 => .here
  | 2 => .doubleRoot
  | _ => .root

/-- The path that a text writes. -/
def parse (t : Text) : Path :=
  ⟨startOf t, (pieces t).filter isName⟩

/-- The text of a start. -/
def startText : PathStart → Text
  | .here => []
  | .root => [slash]
  | .doubleRoot => [slash, slash]

/-- The text of a path; a path that leads nowhere is a dot. -/
def text (p : Path) : Text :=
  match startText p.start ++ Text.joined [slash] p.names with
  | [] => dot
  | t => t

/-- The names that remain when two dots are followed; `above` are those passed
so far, the last one first. There is nothing above the root. -/
def followed (above : List Text) : List Text → List Text
  | [] => above.reverse
  | name :: rest => if name = dots then followed above.tail rest else followed (name :: above) rest

/-- The names from the root to where a path leads, for someone who is at
`here`. -/
def place (here p : Path) : List Text :=
  match p.start with
  | .here => followed [] (here.names ++ p.names)
  | _ => followed [] p.names

/-- The text of a place. -/
def placeText (names : List Text) : Text :=
  slash :: Text.joined [slash] names

end Path

end RowScope
