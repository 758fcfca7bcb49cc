import RowScope.Column.Target
import RowScope.Config.Setting
import RowScope.Error.Basic

/-!
# Faults

Everything that an operation of a session can fail with. Besides the errors of
the library these are the failures of an engine that pass through unchanged, and
the faults of a caller who reads outside the contract: without a row, beyond its
end, or as something that a column cannot become.

## Main definitions

* `Fault`: A reason why an operation has no answer.
* `Fault.ofEngine`: The fault that a failure of the engine is.
* `Fault.message?`: The words of a fault, where the library chooses them.
-/

namespace RowScope

/-- A reason why an operation has no answer. -/
inductive Fault
  /-- An error of the library. -/
  | access (e : AccessError)
  /-- A failure of the engine, unchanged. -/
  | engine (e : EngineError)
  /-- A cell cannot be read that way. -/
  | cell (f : CellFault)
  /-- A cell was read while there was no row. -/
  | rowMissing
  /-- A cell was read beyond the row. -/
  | beyondRow
  /-- The name of a column was read while there was no result. -/
  | resultMissing
  /-- The name of a column was read beyond the result. -/
  | beyondResult
  /-- A column cannot become more than one thing. -/
  | ambiguousTarget (t : Target)
  /-- A column cannot become this. -/
  | noConversion (t : Target)
  /-- A record has fewer than no columns. -/
  | negativeWidth (width : Int)
  /-- A record takes fewer or more values than there are, or none of this
  kind. -/
  | wrongArguments
  /-- A setting cannot be used. -/
  | setting (f : SettingFault)
  /-- A path has a NUL in it. -/
  | nulInPath
  /-- A path cannot be written as bytes. -/
  | pathNotEncodable
  /-- There is no object of this identity. -/
  | noObject

namespace Fault

/-- A failure of the engine as the caller sees it: a failure of the database is
an error of the library, anything else passes unchanged. -/
def ofEngine (e : EngineError) : Fault :=
  if e.isDatabaseFailure then access (.ofEngine e) else engine e

/-- The words of a fault, where the library chooses them. -/
def message? : Fault → Option Text
  | access e => some e.message
  | cell (.noStorageClass typeName) =>
    some (Text.ofString "Unsupported cell value type: " ++ Text.ofString typeName)
  | ambiguousTarget t =>
    some (Text.ofString "Cannot convert a column to ambiguous type " ++ t.described)
  | noConversion t => some (Text.ofString "No conversion from a column to " ++ t.described)
  | negativeWidth width =>
    some (Text.ofString "Record width must not be negative, got " ++ Text.ofInt width)
  | _ => none

end Fault

/-- A reading of a cell as part of an operation. -/
def ofCellReading {α : Type} : Except CellFault α → Except Fault α
  | .ok a => .ok a
  | .error f => .error (.cell f)

end RowScope
