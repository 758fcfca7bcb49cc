import RowScope.Column.Record
import RowScope.Session.View

/-!
# Statements

A statement is executed by its first step and yields one row a step until there
is none left; then it is done, and has to be reset before it can be stepped
again. A closed statement can be neither stepped nor reset, while views of its
current row stay readable.

Every precondition of reading is checked here, once, before a view is made: that
a row is current, that an index lies within the result, that a name occurs in
it, and that a record is not wider than the result.

## Main definitions

* `Session.newStatement`, `Session.closeStatement`: The beginning and the end.
* `Session.step`: The next row.
* `Session.exec`: A run that must not yield a row.
* `Session.reset`: Back to the beginning, possibly with other parameters.
* `Session.placeOf`: The index of a column by its name.
* `Session.getColumn`, `Session.isColumnNull`, `Session.getColumns`: Reading the
  current row.
-/

namespace RowScope

/-- How a column is named: by its index or by its name. -/
inductive Key
  | index (i : Int)
  | name (t : Text)
deriving DecidableEq, Repr

/-- The first index of every name. -/
def firstPlaces (names : List Text) : List (Text × Nat) :=
  names.zipIdx.foldl (fun seen p => if seen.any (·.1 == p.1) then seen else seen ++ [p]) []

namespace Session

/-- Makes a statement on a connection. -/
def newStatement (connection : ConnectionId) (sql : Sql) (params : Params) (s : Session) :
    StatementId × Session :=
  let (h, s) := s.newHandle connection sql
  (s.statements.length,
    { s with statements := s.statements ++ [⟨h, sql, params, false, false, true, none⟩] })

/-- Gives back the share of a statement, if it was not given back yet. -/
def closeStatement (id : StatementId) (s : Session) : Session :=
  match s.statements[id]? with
  | none => s
  | some st =>
    if st.holding then
      (s.onStatement id fun st => { st with holding := false }).release st.handle
    else s

/-- What a failure of the engine during a step amounts to: a failure of the
database clears the row, anything else leaves it. -/
def stepFailed (h : HandleId) (e : EngineError) (s : Session) : Outcome Bool :=
  (.error (.ofEngine e), if e.isDatabaseFailure then s.setRow h none else s)

/-- Executes a statement unless it has been executed already. -/
def begin (e : Engine) (id : StatementId) (st : Statement) (s : Session) :
    Except EngineError Unit × Session :=
  if st.started then (.ok (), s)
  else
    match s.handles[st.handle]? with
    | none => (.ok (), s)
    | some handle =>
      match (s.noted (.executing st.sql)).executeCursor e st.handle handle st.sql st.params with
      | (.error x, s) => (.error x, s)
      | (.ok (), s) => (.ok (), s.onStatement id fun st => { st with started := true })

/-- Moves on to what was fetched: the next row, or the end. -/
def arrive (id : StatementId) (h : HandleId) : Option Row → Session → Outcome Bool
  | some row, s => (.ok true, s.setRow h (some row))
  | none, s => (.ok false, (s.setRow h none).onStatement id fun st => { st with done := true })

/-- Moves to the next row; the answer is whether there is one. -/
def step (e : Engine) (id : StatementId) (s : Session) : Outcome Bool :=
  match s.statements[id]? with
  | none => (.error .noObject, s)
  | some st =>
    if !st.holding then (.error (.access (.closedStatement st.sql)), s)
    else if st.done then (.error (.access .completed), s)
    else
      match s.begin e id st with
      | (.error x, s) => s.stepFailed st.handle x
      | (.ok (), s) =>
        match s.fetchCursor st.handle with
        | (.error x, s) => s.stepFailed st.handle x
        | (.ok fetched, s) => s.arrive id st.handle fetched

/-- Runs a statement that yields no rows; the answer is how many rows it has
affected. -/
def exec (e : Engine) (id : StatementId) (s : Session) : Outcome Int :=
  match s.step e id with
  | (.error f, s) => (.error f, s)
  | (.ok true, s) => (.error (.access .unexpectedRow), s)
  | (.ok false, s) =>
    match s.statements[id]?.bind fun st => s.handles[st.handle]? with
    | none => (.error .noObject, s)
    | some handle => (.ok (max handle.cursor.rowCount 0), s)

/-- Takes a statement back to its beginning. -/
def reset (id : StatementId) (params : Option Params) (s : Session) : Outcome Unit :=
  match s.statements[id]? with
  | none => (.error .noObject, s)
  | some st =>
    if !st.holding then (.error (.access (.closedStatement st.sql)), s)
    else
      let s := (s.noted (.resetting st.sql)).setRow st.handle none
      (.ok (), s.onStatement id fun st =>
        { st with started := false, done := false, params := params.getD st.params })

/-- The indices by name that a statement looks names up in, and the session in
which it has them at hand; there are none as long as there is no result. -/
def placesOf (id : StatementId) (st : Statement) (handle : Handle) (s : Session) :
    Option (List (Text × Nat)) × Session :=
  match st.places with
  | some places => (some places, s)
  | none =>
    match handle.columnNames with
    | [] => (none, s)
    | names =>
      let places := firstPlaces names
      (some places, s.onStatement id fun st => { st with places := some places })

/-- The index of the first column of a name. -/
def placeOf (id : StatementId) (st : Statement) (handle : Handle) (name : Text) (s : Session) :
    Outcome Nat :=
  match s.placesOf id st handle with
  | (none, s) => (.error (.access (.columnName name)), s)
  | (some places, s) =>
    match places.find? (·.1 == name) with
    | some p => (.ok p.2, s)
    | none => (.error (.access (.columnName name)), s)

/-- An index lies within the result. -/
def checkIndex (handle : Handle) (index : Int) : Except Fault Unit :=
  if index < 0 ∨ index ≥ handle.columnCount then
    .error (.access (.columnIndex index handle.columnCount))
  else .ok ()

/-- The index of a key within the result, a row being current. -/
def locate (id : StatementId) (st : Statement) (handle : Handle) (key : Key) (s : Session) :
    Outcome Int :=
  if !handle.hasRow then (.error (.access .noCurrentRow), s)
  else
    let found : Outcome Int := match key with
      | .index i => (.ok i, s)
      | .name name =>
        match s.placeOf id st handle name with
        | (.ok i, s) => (.ok (i : Nat), s)
        | (.error f, s) => (.error f, s)
    match found with
    | (.error f, s) => (.error f, s)
    | (.ok i, s) =>
      match checkIndex handle i with
      | .error f => (.error f, s)
      | .ok () => (.ok i, s)

/-- The statement of an identity, with its handle. -/
def statement? (s : Session) (id : StatementId) : Option (Statement × Handle) := do
  let st ← s.statements[id]?
  let handle ← s.handles[st.handle]?
  return (st, handle)

/-- The index of the first column of a name. -/
def columnIndex (id : StatementId) (name : Text) (s : Session) : Outcome Nat :=
  match s.statement? id with
  | none => (.error .noObject, s)
  | some (st, handle) => s.placeOf id st handle name

/-- The name of the column at an index. -/
def columnName (id : StatementId) (index : Int) (s : Session) : Except Fault Text :=
  match s.statement? id with
  | none => .error .noObject
  | some (_, handle) =>
    match checkIndex handle index with
    | .error f => .error f
    | .ok () => handle.nameAt index

/-- Makes a view of one column of the current row. -/
def getColumn (id : StatementId) (key : Key) (s : Session) : Outcome ViewId :=
  match s.statement? id with
  | none => (.error .noObject, s)
  | some (st, handle) =>
    match s.locate id st handle key with
    | (.error f, s) => (.error f, s)
    | (.ok i, s) =>
      let (v, s) := s.newView st.handle i
      (.ok v, s)

/-- Whether one column of the current row is NULL. -/
def isColumnNull (id : StatementId) (key : Key) (s : Session) : Outcome Bool :=
  match s.statement? id with
  | none => (.error .noObject, s)
  | some (st, handle) =>
    match s.locate id st handle key with
    | (.error f, s) => (.error f, s)
    | (.ok i, s) =>
      (do
        let c ← handle.cellAt i
        return (← ofCellReading c.storageClass) == .null, s)

/-- A record may be made from so many columns, a row being current. -/
def checkWidth (handle : Handle) (count : Int) : Except Fault Nat :=
  if count < 0 then .error (.negativeWidth count)
  else if !handle.hasRow then .error (.access .noCurrentRow)
  else if count > handle.columnCount then
    .error (.access (.columnIndex (count - 1) handle.columnCount))
  else .ok count.toNat

/-- Builds a record from views that were made for it. The views that the record
does not hold are released. -/
def buildRecord (shape : Shape) (ids : List ViewId) (s : Session) : Outcome Value :=
  match shape.build (ids.filterMap s.column?) with
  | .error f => (.error f, s.releaseViews ids)
  | .ok value => (.ok value, s.releaseViews (ids.filter fun v => !value.views.contains v))

/-- Builds a record from the first columns of the current row. -/
def getColumns (id : StatementId) (shape : Shape) (count : Int) (s : Session) : Outcome Value :=
  match s.statement? id with
  | none => (.error .noObject, s)
  | some (st, handle) =>
    match checkWidth handle count with
    | .error f => (.error f, s)
    | .ok n =>
      let (ids, s) := s.newViews st.handle (List.range n)
      s.buildRecord shape ids

end Session

end RowScope
