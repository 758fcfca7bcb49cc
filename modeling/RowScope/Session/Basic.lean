import RowScope.Column.Value
import RowScope.Config.Basic
import RowScope.Engine.Basic
import RowScope.Fault
import RowScope.Path.Basic
import RowScope.Session.Diagnostic

/-!
# Sessions

The state of a program that works with one database: its connections, the
statements it has made, the handles behind them and the views over these,
together with everything that was asked of the engine so far. Objects are never
removed from a session; what matters about an object that is no longer used is
that it has given back its *share*.

A handle owns a cursor of the engine and the row that the cursor has last
delivered. A statement holds one share of its handle and every view another one.
When the last share is given back the cursor is closed, and only then.

## Main definitions

* `Cursor`, `Handle`, `Statement`, `View`, `Connection`, `Database`: The
  objects.
* `Call`: What was asked of the engine.
* `Session`: All of it.
* `Outcome`: What an operation yields.
* `Session.start`: The session in which nothing has happened.
-/

namespace RowScope

/-- The identity of a connection. -/
abbrev ConnectionId := Nat

/-- The identity of a handle. -/
abbrev HandleId := Nat

/-- The identity of a statement. -/
abbrev StatementId := Nat

/-- A connection that was made. -/
structure Connection where
  isOpen : Bool
  /-- How many rows were changed over the connection. -/
  changes : Int

/-- A cursor of the engine. -/
structure Cursor where
  connection : ConnectionId
  closed : Bool
  /-- The names of the result columns of the last execution, if it has a
  result. -/
  columns : Option (List Text)
  /-- What the next fetches yield. -/
  pending : List (Except EngineError Row)
  rowCount : Int

/-- The owner of a cursor, shared by a statement and its views. -/
structure Handle where
  sql : Sql
  cursor : Cursor
  row : Option Row
  shares : Nat
  finalized : Bool

/-- A statement. -/
structure Statement where
  handle : HandleId
  sql : Sql
  params : Params
  /-- The statement was executed since it was made or reset. -/
  started : Bool
  /-- The statement ran to completion. -/
  done : Bool
  /-- The statement has not given back its share. -/
  holding : Bool
  /-- The indices of the result columns by name, once they have been looked
  up. -/
  places : Option (List (Text × Nat))

/-- A view of one column of a handle's row. -/
structure View where
  handle : HandleId
  index : Int
  /-- The view has not given back its share. -/
  holding : Bool

/-- The database that a session works with. -/
structure Database where
  path : Text
  config : Config
  /-- Where the program runs. -/
  here : Path
  connection : Option ConnectionId

/-- What was asked of the engine. -/
inductive Call
  | connect (target : Text) (timeout : Binary64) (uri : Bool)
  | pragma (sql : Text)
  | script (sql : Text)
  | execute (handle : HandleId) (sql : Sql) (params : Params)
  | fetch (handle : HandleId)
  /-- A cursor was closed. -/
  | finalize (handle : HandleId)
  | disconnect (connection : ConnectionId)

/-- The state of a program. -/
structure Session where
  database : Database
  connections : List Connection
  handles : List Handle
  statements : List Statement
  views : List View
  /-- What the engine has answered so far. -/
  past : List Request
  calls : List Call
  log : List Diagnostic

/-- An answer or the reason why there is none, and the session afterwards. -/
abbrev Outcome (α : Type) := Except Fault α × Session

namespace Connection

/-- A connection over which nothing was changed yet. -/
def fresh : Connection := ⟨true, 0⟩

end Connection

namespace Cursor

/-- A cursor that was not used yet. -/
def fresh (connection : ConnectionId) : Cursor :=
  ⟨connection, false, none, [], -1⟩

end Cursor

namespace Handle

/-- A handle with one share and no row. -/
def fresh (connection : ConnectionId) (sql : Sql) : Handle :=
  ⟨sql, Cursor.fresh connection, none, 1, false⟩

/-- A row is current. -/
def hasRow (h : Handle) : Bool := h.row.isSome

/-- The names of the result columns. -/
def columnNames (h : Handle) : List Text := h.cursor.columns.getD []

/-- How many columns the result has. -/
def columnCount (h : Handle) : Nat := h.columnNames.length

end Handle

namespace Session

/-- The session in which nothing has happened. -/
def start (path : Text) (config : Config) (here : Path) : Session where
  database := ⟨path, config, here, none⟩
  connections := []
  handles := []
  statements := []
  views := []
  past := []
  calls := []
  log := []

/-- The session after one more call. -/
def called (s : Session) (c : Call) : Session :=
  { s with calls := s.calls ++ [c] }

/-- The session after one more diagnostic. -/
def noted (s : Session) (d : Diagnostic) : Session :=
  { s with log := s.log ++ [d] }

/-- The session after the engine has answered one more request. -/
def asked (s : Session) (r : Request) : Session :=
  { s with past := s.past ++ [r] }

/-- A change of one handle. -/
def onHandle (s : Session) (h : HandleId) (f : Handle → Handle) : Session :=
  { s with handles := s.handles.modify h f }

/-- A change of one statement. -/
def onStatement (s : Session) (st : StatementId) (f : Statement → Statement) : Session :=
  { s with statements := s.statements.modify st f }

/-- A change of one view. -/
def onView (s : Session) (v : ViewId) (f : View → View) : Session :=
  { s with views := s.views.modify v f }

/-- A change of one connection. -/
def onConnection (s : Session) (c : ConnectionId) (f : Connection → Connection) : Session :=
  { s with connections := s.connections.modify c f }

/-- The connection was made and not closed yet. -/
def isConnected (s : Session) (c : ConnectionId) : Bool :=
  s.connections[c]?.any (·.isOpen)

end Session

end RowScope
