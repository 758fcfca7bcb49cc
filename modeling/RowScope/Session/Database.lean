import RowScope.Path.ReadOnly
import RowScope.Session.Statement

/-!
# Databases

A database is opened and closed any number of times; while it is open it has one
connection. Opening runs the configured pragmas in order, and one that the
database refuses is reported and passed over. A query for a single value makes a
statement of its own and closes it again, so that what remains is just the view
of the value.

## Main definitions

* `Session.openDatabase`, `Session.closeDatabase`: The connection.
* `Session.script`: Running statements that yield no rows.
* `Session.queryFirst`: The first column of the first row.
* `Session.tableExists`, `Session.lastInsertRowid`: Two such queries.
-/

namespace RowScope

namespace Session

/-- Runs one pragma; the answer is a failure that is not to be passed over. -/
def runPragma (e : Engine) (sql : Text) (s : Session) : Option EngineError × Session :=
  let s := s.called (.pragma sql)
  let failure := e.pragma s.past sql
  let s := s.asked (.pragma sql)
  match failure with
  | none => (none, s)
  | some x =>
    if x.isDatabaseFailure then
      (none, s.noted (.pragmaIgnored sql s.database.path x.message))
    else (some x, s)

/-- Runs several pragmas, up to a failure that is not to be passed over. -/
def runPragmas (e : Engine) : List Text → Session → Option EngineError × Session
  | [], s => (none, s)
  | sql :: rest, s =>
    match s.runPragma e sql with
    | (some x, s) => (some x, s)
    | (none, s) => runPragmas e rest s

/-- The session with the connection that is made last as the one in use. -/
def adopt (c : ConnectionId) (s : Session) : Session :=
  let s := { s with database := { s.database with connection := some c } }
  s.noted (.opened s.database.path s.database.config.readOnly)

/-- Makes a connection and prepares it. -/
def connect (e : Engine) (target : Text) (uri : Bool) (s : Session) : Outcome Unit :=
  let s := s.called (.connect target s.database.config.timeout uri)
  let failure := e.connect s.past target
  let s := s.asked (.connect target uri)
  match failure with
  | some x => (.error (.ofEngine x), s)
  | none =>
    let c := s.connections.length
    let s := { s with connections := s.connections ++ [Connection.fresh] }
    match s.database.config.pragmaStatements with
    | .error f => (.error (.setting f), s)
    | .ok sqls =>
      match s.runPragmas e sqls with
      | (some x, s) => (.error (.engine x), s)
      | (none, s) => (.ok (), s.adopt c)

/-- Opens the database; nothing happens if it is open. -/
def openDatabase (e : Engine) (s : Session) : Outcome Unit :=
  match s.database.connection with
  | some _ => (.ok (), s)
  | none =>
    match Path.target s.database.config.readOnly s.database.here s.database.path with
    | .error f => (.error f, s)
    | .ok (target, uri) => s.connect e target uri

/-- Closes the database; nothing happens if it is closed. -/
def closeDatabase (s : Session) : Session :=
  match s.database.connection with
  | none => s
  | some c =>
    let s := s.called (.disconnect c)
    let s := s.onConnection c fun connection => { connection with isOpen := false }
    let s := { s with database := { s.database with connection := none } }
    s.noted (.closed s.database.path)

/-- Runs statements that yield no rows; the answer is how many rows were
changed. -/
def script (e : Engine) (sql : Text) (s : Session) : Outcome Int :=
  match s.database.connection with
  | none => (.error (.access .databaseClosed), s)
  | some c =>
    let s := s.called (.script sql)
    let (changes, failure) := e.script s.past sql
    let s := s.asked (.script sql)
    let s := s.onConnection c fun connection =>
      { connection with changes := connection.changes + changes }
    match failure with
    | some x => (.error (.ofEngine x), s)
    | none => (.ok changes, s)

/-- Makes a statement on the open connection. -/
def prepare (sql : Sql) (params : Params) (s : Session) : Outcome StatementId :=
  match s.database.connection with
  | none => (.error (.access .databaseClosed), s)
  | some c =>
    let (id, s) := s.newStatement c sql params
    (.ok id, s)

/-- Makes a handle on the open connection, without a statement. -/
def prepareHandle (sql : Sql) (s : Session) : Outcome HandleId :=
  match s.database.connection with
  | none => (.error (.access .databaseClosed), s)
  | some c =>
    let (h, s) := s.newHandle c sql
    (.ok h, s)

/-- A view of the first column of the first row. The statement is closed again
in any case. -/
def queryFirst (e : Engine) (sql : Sql) (params : Params) (s : Session) : Outcome ViewId :=
  match s.prepare sql params with
  | (.error f, s) => (.error f, s)
  | (.ok id, s) =>
    match s.step e id with
    | (.error f, s) => (.error f, s.closeStatement id)
    | (.ok _, s) =>
      let (v, s) := s.getColumn id (.index 0)
      (v, s.closeStatement id)

/-- Reads a column and releases the view. -/
def readOnce {α : Type} (v : ViewId) (read : Column → Except Fault α) (s : Session) : Outcome α :=
  match s.column? v with
  | none => (.error .noObject, s)
  | some c => (read c, s.releaseView v)

/-- The SQL that counts the tables of a name. -/
def tableQuery : Sql :=
  .text (Text.ofString "SELECT count(*) FROM sqlite_master WHERE type = 'table' AND name = ?")

/-- The SQL for the last inserted row. -/
def rowidQuery : Sql := .text (Text.ofString "SELECT last_insert_rowid()")

/-- Whether there is a table of this name. -/
def tableExists (e : Engine) (name : Text) (s : Session) : Outcome Bool :=
  match s.queryFirst e tableQuery (.positional [.text name]) with
  | (.error f, s) => (.error f, s)
  | (.ok v, s) => s.readOnce v fun c => return (← c.read Cell.int32) == 1

/-- The identity of the row that was inserted last. -/
def lastInsertRowid (e : Engine) (s : Session) : Outcome Int :=
  match s.queryFirst e rowidQuery Params.empty with
  | (.error f, s) => (.error f, s)
  | (.ok v, s) => s.readOnce v fun c => c.read Cell.int64

/-- How many rows were changed over the open connection. -/
def totalChanges (s : Session) : Except Fault Int :=
  match s.database.connection with
  | none => .error (.access .databaseClosed)
  | some c => .ok ((s.connections[c]?.map (·.changes)).getD 0)

end Session

namespace Database

/-- The database is open. -/
def isOpen (d : Database) : Bool := d.connection.isSome

/-- A database as messages show it. -/
def described (d : Database) : Text :=
  Text.ofString "<Database " ++ Text.quoted d.path ++
    Text.ofString (if d.isOpen then " open=True>" else " open=False>")

end Database

end RowScope
