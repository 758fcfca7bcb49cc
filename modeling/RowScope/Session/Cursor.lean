import RowScope.Session.Basic

/-!
# Cursors

The three calls on a cursor: to execute, to fetch and to close. Every call is
recorded, also one that the engine refuses. A cursor that was closed refuses
before a connection that was closed does, and closing a cursor of a closed
connection is refused as well, so such a cursor is never closed.

An execution forgets the last result before the engine is asked, so that a
failed one leaves no result behind. A fetch that fails ends the result: the rows
behind it are never delivered.

## Main definitions

* `Cursor.refusal?`: Why a cursor cannot be used.
* `Session.executeCursor`: An execution.
* `Session.fetchCursor`: A fetch.
* `Session.closeCursor`: Closing.
-/

namespace RowScope

namespace Cursor

/-- Why a cursor cannot be used, given whether its connection is open. -/
def refusal? (c : Cursor) (connected : Bool) : Option EngineError :=
  if c.closed then some .closedCursor
  else if connected then none
  else some .closedDatabase

/-- A cursor that has forgotten its last result. -/
def cleared (c : Cursor) : Cursor :=
  { c with columns := none, pending := [], rowCount := -1 }

/-- A cursor with a result. -/
def holding (c : Cursor) (a : Answer) : Cursor :=
  { c with columns := a.columns, pending := a.rows, rowCount := a.rowCount }

/-- What a fetch yields, and the cursor afterwards. -/
def next (c : Cursor) : Except EngineError (Option Row) × Cursor :=
  match c.pending with
  | [] => (.ok none, c)
  | .ok row :: rest => (.ok (some row), { c with pending := rest })
  | .error e :: _ => (.error e, { c with pending := [] })

end Cursor

namespace Handle

/-- A change of the cursor. -/
def onCursor (f : Cursor → Cursor) (h : Handle) : Handle :=
  { h with cursor := f h.cursor }

end Handle

namespace Session

/-- Why the cursor of a handle cannot be used. -/
def refusal? (s : Session) (handle : Handle) : Option EngineError :=
  handle.cursor.refusal? (s.isConnected handle.cursor.connection)

/-- Executes some SQL on the cursor of a handle. -/
def executeCursor (e : Engine) (h : HandleId) (handle : Handle) (sql : Sql) (params : Params)
    (s : Session) : Except EngineError Unit × Session :=
  let s := s.called (.execute h sql params)
  match s.refusal? handle with
  | some x => (.error x, s)
  | none =>
    let s := s.onHandle h (Handle.onCursor Cursor.cleared)
    let answer := e.execute s.past sql params
    let s := s.asked (.execute sql params)
    match answer with
    | .error x => (.error x, s)
    | .ok a =>
      let s := s.onHandle h (Handle.onCursor (Cursor.holding · a))
      (.ok (), s.onConnection handle.cursor.connection fun c =>
        { c with changes := c.changes + a.changes })

/-- Fetches from the cursor of a handle. -/
def fetchCursor (h : HandleId) (s : Session) : Except EngineError (Option Row) × Session :=
  let s := s.called (.fetch h)
  match s.handles[h]? with
  | none => (.ok none, s)
  | some handle =>
    match s.refusal? handle with
    | some x => (.error x, s)
    | none =>
      let (fetched, cursor) := handle.cursor.next
      (fetched, s.onHandle h (Handle.onCursor fun _ => cursor))

/-- Closes the cursor of a handle; on a closed connection that is refused. -/
def closeCursor (h : HandleId) (connection : ConnectionId) (s : Session) :
    Except EngineError Unit × Session :=
  let s := s.called (.finalize h)
  if s.isConnected connection then
    (.ok (), s.onHandle h (Handle.onCursor fun c => { c with closed := true }))
  else (.error .closedDatabase, s)

end Session

end RowScope
