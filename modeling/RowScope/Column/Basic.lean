import RowScope.Cell.Projection
import RowScope.Column.Value
import RowScope.Fault

/-!
# Columns

One column of a row, as a view finds it at the moment of reading: its cell, or
why there is none, and its name. Everything that a view can be asked is answered
from these. A reading never changes what is read, so the same column can be read
any number of times and in any way.

## Main definitions

* `Column`: What a view finds.
* `Getter`: The ways of reading a column.
* `Column.get`: The reading.
* `Column.textOr`: The text, or a default for NULL.
-/

namespace RowScope

/-- What a view finds when it looks at its column. -/
structure Column where
  /-- The view itself. -/
  id : ViewId
  /-- The index of the column. -/
  index : Int
  /-- A row is current. -/
  hasRow : Bool
  /-- The cell. -/
  cell : Except Fault Cell
  /-- The name of the column in the result. -/
  name : Except Fault Text

/-- The ways of reading a column. -/
inductive Getter
  | int32
  | uint32
  | int64
  /-- The widest integer that the platform calculates with; it has 64 bits. -/
  | long
  | double
  /-- The text as far as the first NUL. -/
  | text
  | window
  /-- The bytes, nothing for NULL. -/
  | content
  | byteCount
  | storageClass
  | isClass (s : StorageClass)
  | name
  /-- The whole text, nothing for NULL. -/
  | fullText
  /-- The column as messages show it. -/
  | described
  | index
deriving DecidableEq, Repr

namespace Column

/-- A reading of the cell. -/
def read {α : Type} (c : Column) (reading : Cell → Except CellFault α) : Except Fault α := do
  ofCellReading (reading (← c.cell))

/-- The cell is NULL. -/
def isNull (c : Column) : Except Fault Bool := do
  return (← c.read Cell.storageClass) == .null

/-- The text as far as the first NUL; `default` for NULL. -/
def textOr (c : Column) (default : Text) : Except Fault Text :=
  c.read (·.textOr default)

/-- The column as messages show it: with its storage class while a row is
current. -/
def described (c : Column) : Except Fault Text := do
  let start := Text.ofString "<Column " ++ Text.ofInt c.index
  if c.hasRow then
    let s ← c.read Cell.storageClass
    return start ++ Text.ofString ": " ++ Text.ofString s.name ++ Text.ofString ">"
  else
    return start ++ Text.ofString ">"

/-- A reading of the column. -/
def get (c : Column) : Getter → Except Fault Value
  | .int32 => return .integer (← c.read Cell.int32)
  | .uint32 => return .integer (← c.read Cell.uint32)
  | .int64 => return .integer (← c.read Cell.int64)
  | .long => return .integer (← c.read Cell.int64)
  | .double => return .real (← c.read Cell.double)
  | .text => return .text (← c.textOr [])
  | .window => return Value.ofOption .window (← c.read Cell.bytes?)
  | .content => return .bytes (← c.read Cell.content)
  | .byteCount => return .integer (← c.read Cell.byteCount : Nat)
  | .storageClass => return .storageClass (← c.read Cell.storageClass)
  | .isClass s => return .truth ((← c.read Cell.storageClass) == s)
  | .name => return .text (← c.name)
  | .fullText => return .text (← c.read Cell.fullText)
  | .described => return .text (← c.described)
  | .index => return .integer c.index

end Column

end RowScope
