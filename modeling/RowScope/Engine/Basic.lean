import RowScope.Cell.Basic
import RowScope.Engine.Error
import RowScope.Engine.Sql

/-!
# Engines

The engine behind a session, as far as a session can tell. An engine is a
function of what it was asked so far: each request is answered from the list of
all earlier requests. That leaves every behaviour open that depends on the past,
such as a table that was changed, or a query that fails every other time, and
needs no state type of its own.

Rows are not fetched from the engine one by one. An execution answers with all
rows that fetching would yield, in order, and a row that cannot be fetched is a
failure in its place.

## Main definitions

* `Params`: The parameters of an execution.
* `Request`: What an engine can be asked.
* `Answer`: What a successful execution yields.
* `Engine`: The answers to all requests.
-/

namespace RowScope

/-- Parameters by position or by name. -/
inductive Params
  | positional (values : List Cell)
  | named (values : List (Text × Cell))
deriving DecidableEq, Repr

/-- No parameters. -/
def Params.empty : Params := .positional []

/-- What an engine can be asked. -/
inductive Request
  | connect (target : Text) (uri : Bool)
  | pragma (sql : Text)
  | script (sql : Text)
  | execute (sql : Sql) (params : Params)
deriving DecidableEq, Repr

/-- What a successful execution yields. -/
structure Answer where
  /-- The names of the result columns; a statement without a result has none. -/
  columns : Option (List Text)
  /-- What each fetch yields. -/
  rows : List (Except EngineError Row)
  /-- The engine's count of affected rows, or a negative number. -/
  rowCount : Int
  /-- By how much the connection's count of changes grows. -/
  changes : Int

/-- An engine: its answer to each request, after any earlier ones. -/
structure Engine where
  /-- The failure of a connect, if it fails. -/
  connect : List Request → Text → Option EngineError
  /-- The failure of a pragma, if it fails. -/
  pragma : List Request → Text → Option EngineError
  /-- The changes that a script makes, and its failure, if it fails. -/
  script : List Request → Text → Int × Option EngineError
  /-- The answer to an execution. -/
  execute : List Request → Sql → Params → Except EngineError Answer

end RowScope
