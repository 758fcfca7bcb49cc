import RowScope.Engine.Sql

/-!
# Diagnostics

What a program reports about its own doings, apart from its answers. A
diagnostic is an event with its data; its level, the part of the program that it
comes from, and its words follow from that.

## Main definitions

* `Diagnostic`: The events.
* `Diagnostic.level`: How important an event is.
* `Diagnostic.source`: Which part of the program reports it.
* `Diagnostic.message`: The words.
* `Diagnostic.isShown`: Whether an event is shown.
-/

namespace RowScope

/-- How important a diagnostic is. -/
inductive Level
  | debug
  | warning
  | error
deriving DecidableEq, Repr

/-- The part of the program that reports. -/
inductive Source
  | config
  | database
  | statement
  | handle
  | program
deriving DecidableEq, Repr

/-- An event worth reporting. -/
inductive Diagnostic
  | loadingConfig (path : Text)
  | pragmaIgnored (sql path reason : Text)
  | opened (path : Text) (readOnly : Bool)
  | closed (path : Text)
  | executing (sql : Sql)
  | resetting (sql : Sql)
  | releaseIgnored (sql : Sql)
  | finalizing (sql : Sql)
  | cursorUnusable (reason : Text)
  | queryFailed (reason : Text)
  | printed (rows : Nat)
deriving DecidableEq, Repr

namespace Level

/-- The name of a level. -/
def name : Level → String
  | debug => "DEBUG"
  | warning => "WARNING"
  | error => "ERROR"

end Level

namespace Source

/-- The name under which a part of the program reports. -/
def name : Source → String
  | config => "litecolumn.config"
  | database => "litecolumn.core.database"
  | statement => "litecolumn.core.statement"
  | handle => "litecolumn.core.handle"
  | program => "litecolumn.__main__"

end Source

namespace Diagnostic

/-- How important an event is. -/
def level : Diagnostic → Level
  | pragmaIgnored _ _ _ => .warning
  | queryFailed _ => .error
  | _ => .debug

/-- Which part of the program reports an event. -/
def source : Diagnostic → Source
  | loadingConfig _ => .config
  | pragmaIgnored _ _ _ => .database
  | opened _ _ => .database
  | closed _ => .database
  | executing _ => .statement
  | resetting _ => .statement
  | releaseIgnored _ => .handle
  | finalizing _ => .handle
  | cursorUnusable _ => .handle
  | queryFailed _ => .program
  | printed _ => .program

/-- The words of an event. -/
def message : Diagnostic → Text
  | loadingConfig path => Text.ofString "Loading database config from " ++ path
  | pragmaIgnored sql path reason =>
    Text.ofString "Ignoring failed pragma " ++ Text.quoted sql ++ Text.ofString " on " ++ path ++
      Text.ofString ": " ++ reason
  | opened path readOnly =>
    Text.ofString "Opened database " ++ path ++
      Text.ofString (if readOnly then " (readonly=True)" else " (readonly=False)")
  | closed path => Text.ofString "Closed database " ++ path
  | executing sql => Text.ofString "Executing statement " ++ sql.shown
  | resetting sql => Text.ofString "Resetting statement " ++ sql.shown
  | releaseIgnored sql => Text.ofString "Ignoring release of finalized statement " ++ sql.shown
  | finalizing sql => Text.ofString "Finalizing statement " ++ sql.shown
  | cursorUnusable reason => Text.ofString "Cursor already unusable while finalizing: " ++ reason
  | queryFailed reason => Text.ofString "Query failed: " ++ reason
  | printed rows => Text.ofString "Printed " ++ Text.ofNat rows ++ Text.ofString " rows"

/-- A diagnostic as one line: level, source and words. -/
def line (d : Diagnostic) : Text :=
  Text.ofString ("[" ++ d.level.name ++ "] " ++ d.source.name ++ ": ") ++ d.message

/-- A diagnostic is shown if everything is, or if it is a warning at least. -/
def isShown (verbose : Bool) (d : Diagnostic) : Bool :=
  verbose || d.level != .debug

end Diagnostic

end RowScope
