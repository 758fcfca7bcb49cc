import RowScope.Session.Database

/-!
# Printed Rows

A result as lines of text: the cells of a row are separated by tabs, a row ends
in a line feed, and NULL is printed as nothing. A line with the names of the
columns may come first, but only if there is a row at all. Every cell may be
followed by a colon and the name of its storage class.

What was printed before a failure stays printed. Only one view is in use at a
time: the next one is made before the last one is given up, so that the handle
is held all along. The view of the last cell thus outlives the statement, which
is closed in any case, and whoever asked for the rows gives it up at last.

How many rows there are is known as soon as the statement was executed, since
the engine answers with all of them; that is what bounds the number of steps.

## Main definitions

* `RowStyle`: How a result is printed.
* `Printed`: What was printed, how many rows that are, and the view that is
  still in use.
* `Session.printRow`: One row.
* `Session.printRows`: The result of some SQL.
-/

namespace RowScope

/-- How a result is printed. -/
structure RowStyle where
  /-- The names of the columns come first. -/
  header : Bool
  /-- Every cell is followed by its storage class. -/
  types : Bool
deriving DecidableEq, Repr

/-- What was printed. -/
structure Printed where
  output : Text
  rows : Nat
  /-- The view that was made last. -/
  held : Option ViewId
deriving DecidableEq, Repr

/-- What printing amounts to: an answer or a fault, what was printed, and the
session afterwards. -/
abbrev Printing := Except Fault Unit × Printed × Session

namespace Printed

/-- Nothing was printed. -/
def empty : Printed := ⟨[], 0, none⟩

/-- More was printed. -/
def write (t : Text) (p : Printed) : Printed :=
  { p with output := p.output ++ t }

end Printed

namespace RowStyle

/-- What separates cells. -/
def tab : Text := Text.ofString "\t"

/-- What ends a line. -/
def newline : Text := Text.ofString "\n"

/-- What separates a cell from its storage class. -/
def colon : Text := Text.ofString ":"

/-- A cell as it is printed. -/
def cell (style : RowStyle) (c : Column) : Except Fault Text := do
  let storage ← c.read Cell.storageClass
  let text ← c.read Cell.fullText
  return if style.types then text ++ colon ++ Text.ofString storage.name else text

/-- The line of column names in front of the first row. -/
def headerLine (style : RowStyle) (names : List Text) (row : Nat) : Text :=
  if style.header && row == 0 then Text.joined tab names ++ newline else []

end RowStyle

namespace Session

/-- Gives up the view in use. -/
def releaseHeld (p : Printed) (s : Session) : Session :=
  match p.held with
  | none => s
  | some v => s.releaseView v

/-- Prints one cell of the current row. -/
def printCell (style : RowStyle) (id : StatementId) (index : Nat) (p : Printed) (s : Session) :
    Printing :=
  let p := if index = 0 then p else p.write RowStyle.tab
  match s.getColumn id (.index index) with
  | (.error f, s) => (.error f, p, s)
  | (.ok v, s) =>
    let s := s.releaseHeld p
    let p := { p with held := some v }
    match s.column? v with
    | none => (.error .noObject, p, s)
    | some c =>
      match style.cell c with
      | .error f => (.error f, p, s)
      | .ok t => (.ok (), p.write t, s)

/-- Prints several cells of the current row. -/
def printCells (style : RowStyle) (id : StatementId) : List Nat → Printed → Session → Printing
  | [], p, s => (.ok (), p, s)
  | i :: rest, p, s =>
    match s.printCell style id i p with
    | (.error f, p, s) => (.error f, p, s)
    | (.ok (), p, s) => printCells style id rest p s

/-- Prints the current row. -/
def printRow (style : RowStyle) (id : StatementId) (p : Printed) (s : Session) : Printing :=
  match s.statement? id with
  | none => (.error .noObject, p, s)
  | some (_, handle) =>
    let p := p.write (style.headerLine handle.columnNames p.rows)
    match s.printCells style id (List.range handle.columnCount) p with
    | (.error f, p, s) => (.error f, p, s)
    | (.ok (), p, s) => (.ok (), { p.write RowStyle.newline with rows := p.rows + 1 }, s)

/-- How many fetches are left before the result of a statement ends. -/
def remaining (id : StatementId) (s : Session) : Nat :=
  match s.statement? id with
  | none => 0
  | some (_, handle) => handle.cursor.pending.length

/-- Prints what a step has arrived at and everything behind it, at most `count`
rows. -/
def printFrom (e : Engine) (style : RowStyle) (id : StatementId) :
    Nat → Outcome Bool → Printed → Printing
  | _, (.error f, s), p => (.error f, p, s)
  | _, (.ok false, s), p => (.ok (), p, s)
  | 0, (.ok true, s), p => (.ok (), p, s)
  | count + 1, (.ok true, s), p =>
    match s.printRow style id p with
    | (.error f, p, s) => (.error f, p, s)
    | (.ok (), p, s) => printFrom e style id count (s.step e id) p

/-- Prints all rows of a statement that was not stepped yet. -/
def printAll (e : Engine) (style : RowStyle) (id : StatementId) (s : Session) : Printing :=
  let stepped := s.step e id
  printFrom e style id (stepped.2.remaining id + 1) stepped Printed.empty

/-- Prints the rows that some SQL yields. The statement is closed again in any
case. -/
def printRows (e : Engine) (style : RowStyle) (sql : Sql) (s : Session) : Printing :=
  match s.prepare sql Params.empty with
  | (.error f, s) => (.error f, Printed.empty, s)
  | (.ok id, s) =>
    let (outcome, p, s) := s.printAll e style id
    (outcome, p, s.closeStatement id)

end Session

end RowScope
