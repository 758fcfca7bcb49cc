import RowScope.Text.Basic

/-!
# Conversion Targets

What a column can be asked to become. A target is a kind of value, the column
itself, or a target under a new name; or it leaves a choice between several
targets, one of which may be nothing. Only a choice between one target and
nothing can be decided by looking at a cell, namely by whether the cell is NULL.

Choices are made by `Target.either` and `Target.orNothing`, which keep them flat
and without repetitions: a choice never has a choice among its alternatives,
unless that has a name of its own. Nothing to become is one thing, and the kind
of value that nothing is, is another one by itself; as alternatives of a choice
they are the same, and a choice that has no other alternative is that kind.

## Main definitions

* `Target`: A target.
* `Target.either`, `Target.orNothing`: Choices.
* `Target.described`: A target as messages show it.
-/

namespace RowScope

/-- How a choice is written: with bars between its alternatives, or as a list of
them. -/
inductive Spelling
  | bars
  | listed
deriving DecidableEq, Repr

/-- What a column can be asked to become. -/
inductive Target
  | integer
  | real
  | text
  | bytes
  | window
  | truth
  | storageClass
  /-- Whatever it is; the column itself will do. -/
  | anything
  /-- The column itself. -/
  | column
  /-- Nothing. -/
  | nothing
  /-- The kind of value that nothing is. No cell converts to it. -/
  | absence
  /-- A kind of value that no cell converts to. -/
  | unsupported (typeName : String)
  /-- A target under a new name. -/
  | named (name : Text) (base : Target)
  | choice (spelling : Spelling) (alternatives : List Target)
deriving Inhabited

namespace Target

/-- The name of a target that has one and only one. -/
def name? : Target → Option String
  | integer => some "int"
  | real => some "float"
  | text => some "str"
  | bytes => some "bytes"
  | window => some "memoryview"
  | truth => some "bool"
  | storageClass => some "litecolumn.core.coercion.ColumnType"
  | anything => some "typing.Any"
  | column => some "litecolumn.core.column.Column"
  | nothing => some "None"
  | absence => some "NoneType"
  | unsupported typeName => some typeName
  | named _ _ => none
  | choice _ _ => none

/-- The same target twice; targets with a new name are told apart even if the
names are equal. -/
def same (a b : Target) : Bool :=
  a.name?.isSome && a.name? == b.name?

/-- Nothing to become. -/
def isNothing : Target → Bool
  | nothing => true
  | _ => false

/-- What a target adds to a choice: its own alternatives if it is a choice, else
itself. -/
def alternatives : Target → List Target
  | choice _ ts => ts
  | absence => [nothing]
  | t => [t]

/-- Targets without repetitions, the first of equal ones staying. -/
def distinct (ts : List Target) : List Target :=
  ts.foldl (fun seen t => if seen.any (same t) then seen else seen ++ [t]) []

/-- A choice with bars is possible between plain targets only. -/
def needsList : Target → Bool
  | named _ _ => true
  | choice .listed _ => true
  | _ => false

/-- A choice; what is left to choose from if only one alternative remains. -/
def chosen (spelling : Spelling) (ts : List Target) : Target :=
  match distinct (ts.flatMap alternatives) with
  | [nothing] => absence
  | [t] => t
  | ts => choice spelling ts

/-- A choice between targets; one target alone leaves no choice. -/
def either : List Target → Target
  | [t] => t
  | ts => chosen (if ts.any needsList then .listed else .bars) ts

/-- A target, or nothing. -/
def orNothing (t : Target) : Target :=
  chosen .listed [t, nothing]

/-- A new name as messages show it. -/
def newName (name : Text) : Text :=
  Text.ofString "__main__." ++ name

/-- An alternative as it stands in a choice. A choice never stands in a choice,
so nothing is said for one. -/
def alternativeText (spelling : Spelling) : Target → Text
  | nothing => Text.ofString (if spelling = .bars then "None" else "NoneType")
  | named name _ => newName name
  | t => Text.ofString (t.name?.getD "")

/-- A target as messages show it. -/
def described : Target → Text
  | nothing => Text.ofString "None"
  | named name _ => newName name
  | choice .bars ts => Text.joined (Text.ofString " | ") (ts.map (alternativeText .bars))
  | choice .listed ts =>
    Text.ofString "typing.Union[" ++
      Text.joined (Text.ofString ", ") (ts.map (alternativeText .listed)) ++ Text.ofString "]"
  | t => Text.ofString "<class '" ++ Text.ofString (t.name?.getD "") ++ Text.ofString "'>"

end Target

end RowScope
