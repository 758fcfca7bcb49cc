import RowScope.Cell.Basic

/-!
# Values

What an operation answers with. Most answers are single values; a window is a
view of bytes that belong to a cell, a column is a view of a cell itself, and a
record holds values under the names of its fields.

## Main definitions

* `ViewId`: The identity of a view.
* `Value`: An answer.
* `Value.ofCell`: A cell as it is.
* `Value.ofStored`: A cell as its storage class says.
* `Value.views`: The views that a value holds.
-/

namespace RowScope

/-- The identity of a view: the place of its making among all views of a
session. -/
abbrev ViewId := Nat

/-- What an operation answers with. -/
inductive Value
  | null
  | truth (b : Bool)
  | integer (n : Int)
  | real (x : Binary64)
  | text (t : Text)
  | bytes (b : Bytes)
  /-- Bytes that cannot be written to. -/
  | window (b : Bytes)
  | storageClass (s : StorageClass)
  /-- A view of the cell with this index. -/
  | column (id : ViewId) (index : Int)
  | record (name : Text) (fields : List (Text × Value))
  | list (values : List Value)
  /-- A value of a type that no engine stores. -/
  | foreign (typeName : String)

namespace Value

/-- A cell as it is. -/
def ofCell : Cell → Value
  | .null => null
  | .integer n => integer n
  | .real x => real x
  | .text t => text t
  | .blob b => bytes b
  | .window b => window b
  | .foreign typeName _ => foreign typeName

/-- A cell, read as what its storage class says: a window on bytes is read as
the bytes. -/
def ofStored : Cell → Value
  | .window b => bytes b
  | c => ofCell c

/-- Nothing, or the value of what is there. -/
def ofOption {α : Type} (make : α → Value) : Option α → Value
  | none => null
  | some a => make a

mutual

/-- The views that a value holds, in order. -/
def views : Value → List ViewId
  | column id _ => [id]
  | record _ fields => viewsOfFields fields
  | list values => viewsOfEach values
  | _ => []

/-- The views of the fields of a record. -/
def viewsOfFields : List (Text × Value) → List ViewId
  | [] => []
  | (_, v) :: rest => views v ++ viewsOfFields rest

/-- The views of several values. -/
def viewsOfEach : List Value → List ViewId
  | [] => []
  | v :: rest => views v ++ viewsOfEach rest

end

end Value

end RowScope
