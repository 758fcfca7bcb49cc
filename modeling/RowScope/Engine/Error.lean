import RowScope.Text.Basic

/-!
# Engine Errors

What an engine reports when a call fails. Engines sort their failures into
classes; two of those, warnings and overflows, are not failures of the database
and are never turned into an error of this library.

## Main definitions

* `EngineErrorKind`: The class of a failure.
* `EngineError`: A failure, with the engine's message and its codes where it
  gives some.
* `EngineError.isDatabaseFailure`: Whether the failure becomes an error of the
  library.
* `EngineError.closedCursor`, `EngineError.closedDatabase`: The failures of dead
  cursors.
-/

namespace RowScope

/-- The class of an engine's failure. -/
inductive EngineErrorKind
  | error
  | database
  | interface
  | data
  | operational
  | integrity
  | internal
  | programming
  | notSupported
  | warning
  | overflow
deriving DecidableEq, Repr

/-- A failure of an engine call. -/
structure EngineError where
  kind : EngineErrorKind
  message : Text
  /-- The result code, if the engine gives one. -/
  code : Option Int
  /-- The symbolic name of the result code, if the engine gives one. -/
  codeName : Option Text
deriving DecidableEq, Repr

namespace EngineError

/-- Warnings and overflows are no failures of the database. -/
def isDatabaseFailure (e : EngineError) : Bool :=
  e.kind != .warning && e.kind != .overflow

/-- A call on a cursor that was closed. -/
def closedCursor : EngineError :=
  ⟨.programming, Text.ofString "Cannot operate on a closed cursor.", none, none⟩

/-- A call on a cursor whose connection was closed. -/
def closedDatabase : EngineError :=
  ⟨.programming, Text.ofString "Cannot operate on a closed database.", none, none⟩

end EngineError

end RowScope
