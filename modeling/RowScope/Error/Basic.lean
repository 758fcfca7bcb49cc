import RowScope.Engine.Error
import RowScope.Engine.Sql

/-!
# Errors of the Library

What the library itself reports. A *violation* means that a caller did not meet
a precondition; it is found before any cell is read, and changes nothing. The
other errors come from the engine, from a statement that is used out of turn, or
from a database that is not open.

The wording of every error stands here and nowhere else: an error is a cause
with its data, and `AccessError.message` says it in words.

## Main definitions

* `Report`: A message with an engine's codes.
* `AccessError`: The errors.
* `AccessError.message`: The words.
* `AccessError.precondition?`: The precondition that a violation names.
* `AccessError.ofEngine`: The error that stands for a failure of the engine.
-/

namespace RowScope

/-- A message with the codes of an engine, where there are some. -/
structure Report where
  message : Text
  code : Option Int
  codeName : Option Text
deriving DecidableEq, Repr

/-- The errors of the library. -/
inductive AccessError
  /-- An error of no closer kind. -/
  | failure (message : Text)
  /-- A precondition was not met. -/
  | violation (precondition message : Text)
  /-- A column was asked for while no row is current. -/
  | noRow (message : Text)
  /-- An index lies outside the result. -/
  | columnIndex (index count : Int)
  /-- No column has this name. -/
  | columnName (name : Text)
  /-- The engine failed. -/
  | engine (report : Report)
  /-- A statement was used out of turn. -/
  | misuse (report : Report)
  /-- A database was used that is not open. -/
  | notOpen (message : Text)
deriving DecidableEq, Repr

namespace AccessError

/-- The words about an index that lies outside the result. -/
def indexMessage (index count : Text) : Text :=
  Text.ofString "Column index " ++ index ++
    Text.ofString " out of range (statement has " ++ count ++ Text.ofString " columns)"

/-- The words about a name that no column has. -/
def nameMessage (name : Text) : Text :=
  Text.ofString "Unknown column name " ++ name

/-- The words of an error. -/
def message : AccessError → Text
  | failure message => message
  | violation _ message => message
  | noRow message => message
  | columnIndex index count => indexMessage (Text.ofInt index) (Text.ofInt count)
  | columnName name => nameMessage (Text.quoted name)
  | engine report => report.message
  | misuse report => report.message
  | notOpen message => message

/-- The precondition of reading a column: a row is current. -/
def rowAvailable : Text := Text.ofString "row_available"

/-- The precondition of naming a column by its index: the result has such a
column. -/
def indexInRange : Text := Text.ofString "index_in_range"

/-- The precondition of naming a column by its name: the result has such a
column. -/
def knownColumnName : Text := Text.ofString "known_column_name"

/-- The precondition that was not met, if the error is a violation. -/
def precondition? : AccessError → Option Text
  | violation precondition _ => some precondition
  | noRow _ => some rowAvailable
  | columnIndex _ _ => some indexInRange
  | columnName _ => some knownColumnName
  | _ => none

/-- The error that stands for a failure of the engine: the same message and
codes. -/
def ofEngine (e : EngineError) : AccessError :=
  engine ⟨e.message, e.code, e.codeName⟩

/-- A misuse that only has a message. -/
def misused (message : Text) : AccessError :=
  misuse ⟨message, none, none⟩

/-- No row is current. -/
def noCurrentRow : AccessError :=
  noRow (Text.ofString
    "No row to get a column from. execute_step() was not called, or returned False.")

/-- A statement was used after it had been closed. -/
def closedStatement (sql : Sql) : AccessError :=
  misused (Text.ofString "Statement " ++ sql.shown ++ Text.ofString " is closed.")

/-- A statement was stepped after it had run to completion. -/
def completed : AccessError :=
  misused (Text.ofString "Statement needs to be reset.")

/-- A statement yielded a row where none was expected. -/
def unexpectedRow : AccessError :=
  misused (Text.ofString "exec() does not expect results. Use execute_step().")

/-- A database was used while it was closed. -/
def databaseClosed : AccessError :=
  notOpen (Text.ofString "Database is not open. Call db.open() first.")

end AccessError

end RowScope
