import RowScope.Session.Database

/-!
# Commands

Everything that a program can do with a session, as data. A *query* only looks,
and thus leaves the session as it is; a *command* may change it, and may make an
object. A run is a list of commands.

Whatever is made only in passing (the view of a peek, the views of a record that
was not built) is given up before the command ends.

## Main definitions

* `Query`, `Session.ask`: The questions and their answers.
* `Command`: The commands.
* `Made`: What a command can make.
* `Reply`: An answer, what was made, and the session afterwards.
* `Session.perform`, `Session.run`: One command, and several in order.
-/

namespace RowScope

/-- The direct readings of a handle's row. -/
inductive Projection
  | storageClass
  | int32
  | int64
  | double
  | text
  | bytes
  | byteCount
deriving DecidableEq, Repr

/-- A cell read directly; NULL has neither text nor bytes. -/
def Cell.project (c : Cell) : Projection → Except CellFault Value
  | .storageClass => return .storageClass (← c.storageClass)
  | .int32 => return .integer (← c.int32)
  | .int64 => return .integer (← c.int64)
  | .double => return .real (← c.double)
  | .text => return Value.ofOption .text (← c.text?)
  | .bytes => return Value.ofOption .bytes (← c.bytes?)
  | .byteCount => return .integer (← c.byteCount : Nat)

/-- SQL as an answer; what is missing is an empty list. -/
def Value.ofSql : Sql → Value
  | .text t => .text t
  | .missing => .list []

/-- A question that changes nothing. -/
inductive Query
  | path
  | isOpen
  | databaseText
  | totalChanges
  | statementSql (id : StatementId)
  | statementHasRow (id : StatementId)
  | isDone (id : StatementId)
  | isClosed (id : StatementId)
  | statementColumnCount (id : StatementId)
  | statementText (id : StatementId)
  | columnName (id : StatementId) (index : Int)
  | get (v : ViewId) (g : Getter)
  | textOr (v : ViewId) (default : Text)
  | convert (v : ViewId) (t : Target)
  /-- The text written to a sink, and whether the sink is handed back. -/
  | written (v : ViewId)
  | handleSql (h : HandleId)
  | shares (h : HandleId)
  | isFinalized (h : HandleId)
  | handleHasRow (h : HandleId)
  | handleRow (h : HandleId)
  | handleColumnCount (h : HandleId)
  | handleColumnNames (h : HandleId)
  | handleColumnName (h : HandleId) (index : Int)
  | handleText (h : HandleId)
  | raw (h : HandleId) (index : Int) (p : Projection)

/-- What a command can make. -/
inductive Made
  | statement (id : StatementId)
  | view (v : ViewId)
  | handle (h : HandleId)
  /-- A record, by the views that it holds. -/
  | record (vs : List ViewId)

/-- Something that can be done with a session. -/
inductive Command
  | openDatabase
  /-- Opens the database for a block of work. -/
  | enter
  /-- Closes the database, also at the end of a block of work. -/
  | closeDatabase
  | script (sql : Text)
  | tableExists (name : Text)
  | lastInsertRowid
  | prepare (sql : Sql) (params : Params)
  | queryFirst (sql : Sql) (params : Params)
  | prepareHandle (sql : Sql)
  | step (id : StatementId)
  | exec (id : StatementId)
  | reset (id : StatementId) (params : Option Params)
  | closeStatement (id : StatementId)
  | getColumn (id : StatementId) (key : Key)
  | peek (id : StatementId) (key : Key) (g : Getter)
  | cells (id : StatementId)
  | columnIndex (id : StatementId) (name : Text)
  | isColumnNull (id : StatementId) (key : Key)
  | getColumns (id : StatementId) (shape : Shape) (count : Int)
  | releaseView (v : ViewId)
  | share (h : HandleId)
  | release (h : HandleId)
  | setRow (h : HandleId) (row : Option Row)
  | executeHandle (h : HandleId)
  | viewOf (h : HandleId) (index : Int)
  /-- Something that was made is no longer used. -/
  | drop (made : Made)
  | query (q : Query)

/-- An answer, and what was made. -/
structure Reply where
  answer : Except Fault Value
  made : Option Made

namespace Statement

/-- A statement as messages show it. -/
def described (st : Statement) : Text :=
  Text.ofString "<Statement " ++ st.sql.shown ++ Text.ofString ">"

end Statement

namespace Session

/-- A question about a statement. -/
def askStatement (s : Session) (id : StatementId) (f : Statement → Handle → Value) :
    Except Fault Value :=
  match s.statement? id with
  | none => .error .noObject
  | some (st, handle) => .ok (f st handle)

/-- A question about a handle. -/
def askHandle (s : Session) (h : HandleId) (f : Handle → Except Fault Value) :
    Except Fault Value :=
  match s.handles[h]? with
  | none => .error .noObject
  | some handle => f handle

/-- A question about a view. -/
def askView (s : Session) (v : ViewId) (f : Column → Except Fault Value) : Except Fault Value :=
  match s.column? v with
  | none => .error .noObject
  | some c => f c

/-- The answer to a question. -/
def ask (s : Session) : Query → Except Fault Value
  | .path => .ok (.text s.database.path)
  | .isOpen => .ok (.truth s.database.isOpen)
  | .databaseText => .ok (.text s.database.described)
  | .totalChanges => s.totalChanges.map .integer
  | .statementSql id => s.askStatement id fun st _ => Value.ofSql st.sql
  | .statementHasRow id => s.askStatement id fun _ h => .truth h.hasRow
  | .isDone id => s.askStatement id fun st _ => .truth st.done
  | .isClosed id => s.askStatement id fun st _ => .truth !st.holding
  | .statementColumnCount id => s.askStatement id fun _ h => .integer (h.columnCount : Nat)
  | .statementText id => s.askStatement id fun st _ => .text st.described
  | .columnName id index => (s.columnName id index).map .text
  | .get v g => s.askView v (·.get g)
  | .textOr v default => s.askView v fun c => (c.textOr default).map .text
  | .convert v t => s.askView v (·.convert t)
  | .written v => s.askView v fun c => return .list [← c.get .fullText, .truth true]
  | .handleSql h => s.askHandle h fun handle => .ok (Value.ofSql handle.sql)
  | .shares h => s.askHandle h fun handle => .ok (.integer (handle.shares : Nat))
  | .isFinalized h => s.askHandle h fun handle => .ok (.truth handle.finalized)
  | .handleHasRow h => s.askHandle h fun handle => .ok (.truth handle.hasRow)
  | .handleRow h => s.askHandle h fun handle =>
    .ok (Value.ofOption (fun row => .list (row.map Value.ofCell)) handle.row)
  | .handleColumnCount h => s.askHandle h fun handle => .ok (.integer (handle.columnCount : Nat))
  | .handleColumnNames h => s.askHandle h fun handle => .ok (.list (handle.columnNames.map .text))
  | .handleColumnName h index => s.askHandle h fun handle => (handle.nameAt index).map .text
  | .handleText h => s.askHandle h fun handle => .ok (.text handle.described)
  | .raw h index p => s.askHandle h fun handle => do
    ofCellReading ((← handle.cellAt index).project p)

/-- One column of the current row, read once. -/
def peek (id : StatementId) (key : Key) (read : Column → Except Fault Value) (s : Session) :
    Outcome Value :=
  match s.getColumn id key with
  | (.error f, s) => (.error f, s)
  | (.ok v, s) => s.readOnce v read

/-- A column as what it is stored as. -/
def storedValue (c : Column) : Except Fault Value := do
  let _ ← c.read Cell.storageClass
  return Value.ofStored (← c.cell)

/-- Several columns of the current row, each as what it is stored as. -/
def cellsAt (id : StatementId) : List Nat → Session → Outcome (List Value)
  | [], s => (.ok [], s)
  | i :: rest, s =>
    match s.peek id (.index i) storedValue with
    | (.error f, s) => (.error f, s)
    | (.ok value, s) =>
      match cellsAt id rest s with
      | (.error f, s) => (.error f, s)
      | (.ok values, s) => (.ok (value :: values), s)

/-- All columns of the current row, each as what it is stored as. -/
def cells (id : StatementId) (s : Session) : Outcome Value :=
  match s.statement? id with
  | none => (.error .noObject, s)
  | some (_, handle) =>
    match s.cellsAt id (List.range handle.columnCount) with
    | (.error f, s) => (.error f, s)
    | (.ok values, s) => (.ok (.list values), s)

/-- Executes the SQL of a handle directly. -/
def executeHandle (e : Engine) (h : HandleId) (s : Session) : Outcome Unit :=
  match s.handles[h]? with
  | none => (.error .noObject, s)
  | some handle =>
    match s.executeCursor e h handle handle.sql Params.empty with
    | (.error x, s) => (.error (.engine x), s)
    | (.ok (), s) => (.ok (), s)

/-- Gives up something that was made. -/
def drop (made : Made) (s : Session) : Session :=
  match made with
  | .statement id => s.closeStatement id
  | .view v => s.releaseView v
  | .handle _ => s
  | .record vs => s.releaseViews vs

/-- A reply without an object. -/
def plainly {α : Type} (value : α → Value) : Outcome α → Reply × Session
  | (.ok a, s) => (⟨.ok (value a), none⟩, s)
  | (.error f, s) => (⟨.error f, none⟩, s)

/-- A reply with an object. -/
def making {α : Type} (value : α → Value) (made : α → Made) : Outcome α → Reply × Session
  | (.ok a, s) => (⟨.ok (value a), some (made a)⟩, s)
  | (.error f, s) => (⟨.error f, none⟩, s)

/-- A view as an answer. -/
def viewValue (s : Session) (v : ViewId) : Value :=
  .column v ((s.views[v]?.map (·.index)).getD 0)

/-- A reply with a view. -/
def viewing (o : Outcome ViewId) : Reply × Session :=
  making (viewValue o.2) .view o

/-- Does something with a handle, if there is one of this identity. -/
def withHandle (h : HandleId) (value : Value) (f : Session → Session) (s : Session) :
    Reply × Session :=
  if s.handles[h]?.isSome then (⟨.ok value, none⟩, f s) else (⟨.error .noObject, none⟩, s)

/-- Performs a command. -/
def perform (e : Engine) (c : Command) (s : Session) : Reply × Session :=
  match c with
  | .openDatabase => plainly (fun _ => .null) (s.openDatabase e)
  | .enter => plainly (fun _ => .truth true) (s.openDatabase e)
  | .closeDatabase => (⟨.ok .null, none⟩, s.closeDatabase)
  | .script sql => plainly .integer (s.script e sql)
  | .tableExists name => plainly .truth (s.tableExists e name)
  | .lastInsertRowid => plainly .integer (s.lastInsertRowid e)
  | .prepare sql params => making (fun _ => .null) .statement (s.prepare sql params)
  | .queryFirst sql params => viewing (s.queryFirst e sql params)
  | .prepareHandle sql => making (fun _ => .null) .handle (s.prepareHandle sql)
  | .step id => plainly .truth (s.step e id)
  | .exec id => plainly .integer (s.exec e id)
  | .reset id params => plainly (fun _ => .null) (s.reset id params)
  | .closeStatement id => (⟨.ok .null, none⟩, s.closeStatement id)
  | .getColumn id key => viewing (s.getColumn id key)
  | .peek id key g => plainly (fun v => v) (s.peek id key (·.get g))
  | .cells id => plainly (fun v => v) (s.cells id)
  | .columnIndex id name => plainly (fun i => .integer (i : Nat)) (s.columnIndex id name)
  | .isColumnNull id key => plainly .truth (s.isColumnNull id key)
  | .getColumns id shape count =>
    making (fun v => v) (fun v => .record v.views) (s.getColumns id shape count)
  | .releaseView v => (⟨.ok .null, none⟩, s.releaseView v)
  | .share h => s.withHandle h (.truth true) (share h)
  | .release h => s.withHandle h .null (release h)
  | .setRow h row => s.withHandle h .null (setRow h row)
  | .executeHandle h => plainly (fun _ => .null) (s.executeHandle e h)
  | .viewOf h index =>
    if s.handles[h]?.isSome then
      viewing (let (v, s) := s.newView h index; (.ok v, s))
    else (⟨.error .noObject, none⟩, s)
  | .drop made => (⟨.ok .null, none⟩, s.drop made)
  | .query q => (⟨s.ask q, none⟩, s)

/-- Performs several commands in order. -/
def run (e : Engine) : List Command → Session → List Reply × Session
  | [], s => ([], s)
  | c :: rest, s =>
    let (reply, s) := s.perform e c
    let (replies, s) := run e rest s
    (reply :: replies, s)

end Session

end RowScope
