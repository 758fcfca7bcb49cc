import RowScope.Number.Binary64
import RowScope.Text.Basic

/-!
# Cells

A cell of a result row, by its storage class, and what can go wrong when it is
read as something else. An engine delivers the first five kinds only. A row that
is set by hand may also hold a window on bytes, which is read like a blob
without being one, or a value that has no storage class.

## Main definitions

* `StorageClass`: The five ways in which an engine stores a value.
* `Cell`: A value with its storage class.
* `CellFault`: Why a cell cannot be read in some way.
* `Cell.storageClass`: The storage class of a cell.
-/

namespace RowScope

/-- How an engine stores a value. -/
inductive StorageClass
  | integer
  | float
  | text
  | blob
  | null
deriving DecidableEq, Repr

namespace StorageClass

/-- The type code that engines use for the class. -/
def code : StorageClass → Nat
  | integer => 1
  | float => 2
  | text => 3
  | blob => 4
  | null => 5

/-- The name of the class. -/
def name : StorageClass → String
  | integer => "INTEGER"
  | float => "FLOAT"
  | text => "TEXT"
  | blob => "BLOB"
  | null => "NULL"

end StorageClass

/-- A cell of a row. -/
inductive Cell
  | null
  /-- An integer; an engine delivers 64 bits, a row set by hand any number. -/
  | integer (n : Int)
  | real (x : Binary64)
  | text (t : Text)
  | blob (bytes : Bytes)
  /-- Bytes that belong to something else; they are read as a blob. -/
  | window (bytes : Bytes)
  /-- A value of a type that has no storage class, and its content where that is
  a collection. -/
  | foreign (typeName : String) (content : Option Bytes)
deriving DecidableEq, Repr

/-- Why a cell cannot be read in some way. -/
inductive CellFault
  /-- A value of this type has no storage class. -/
  | noStorageClass (typeName : String)
  /-- A value that is no collection has no bytes. -/
  | noBytes
  /-- A whole number is written with more digits than are read or written at
  once. -/
  | tooManyDigits
  /-- An integer lies beyond the doubles. -/
  | beyondDoubles
  /-- A text holds a surrogate that stands for no byte. -/
  | notEncodable
deriving DecidableEq, Repr

/-- A row is the list of its cells. -/
abbrev Row := List Cell

namespace Cell

/-- The storage class of a cell. -/
def storageClass : Cell → Except CellFault StorageClass
  | null => .ok .null
  | integer _ => .ok .integer
  | real _ => .ok .float
  | text _ => .ok .text
  | blob _ => .ok .blob
  | window _ => .ok .blob
  | foreign typeName _ => .error (.noStorageClass typeName)

/-- What an engine can deliver: the five storage classes, integers of 64 bits,
and texts that were decoded from bytes (those have no surrogates but strays). -/
def IsStored : Cell → Prop
  | null => True
  | integer n => -0x8000000000000000 ≤ n ∧ n < 0x8000000000000000
  | real _ => True
  | text t => ∀ c ∈ t, c.isSurrogate = true → c.isStray = true
  | blob _ => True
  | window _ => False
  | foreign _ _ => False

end Cell

end RowScope
