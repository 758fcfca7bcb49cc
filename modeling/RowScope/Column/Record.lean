import RowScope.Column.Convert

/-!
# Records

A record is built from the first columns of a row, in order. What is built is a
*shape*: a record with fields, a single value, or just the columns. The fields
of a record convert their columns first, each by its annotation; then all values
are handed over at once, and only then it matters whether there are as many as
the shape takes.

A field that is no parameter is passed over, so that it neither takes a value
nor shifts the annotations of the fields behind it. A field that is given by
keyword takes no value by position either, but keeps its place among the
annotations.

## Main definitions

* `Field`: A field of a record.
* `Shape`: What can be built.
* `Shape.annotations`: What each column is converted to first.
* `Shape.arguments`: The values that are handed over.
* `Shape.construct`: The result.
* `Shape.build`: All of it.
-/

namespace RowScope

/-- A field of a record. -/
structure Field where
  name : Text
  /-- What the field's column is converted to; without one the field takes the
  column itself. -/
  annotation : Option Target
  /-- What the field holds if nothing is given. -/
  default : Option Value
  /-- The field is given when the record is built; else it always has its
  default. -/
  isParameter : Bool
  /-- The field can be given by name only. -/
  keywordOnly : Bool

/-- The single values that can be built. -/
inductive Scalar
  | integer
  | text
  | real
  | bytes
deriving DecidableEq, Repr

/-- What can be built from columns. -/
inductive Shape
  /-- The list of any number of columns. -/
  | columns
  /-- The list of exactly so many columns. -/
  | exactly (n : Nat)
  /-- One column as a single value. -/
  | scalar (s : Scalar)
  /-- The empty list; a column is no list of values, so nothing else can be
  listed. -/
  | sequence
  /-- A record. -/
  | fields (name : Text) (fs : List Field)

namespace Field

/-- The field takes a value by position. -/
def isPositional (f : Field) : Bool :=
  f.isParameter && !f.keywordOnly

/-- What the field's column is converted to; as an annotation, nothing stands
for its kind. -/
def target (f : Field) : Target :=
  match f.annotation with
  | some .nothing => .absence
  | some t => t
  | none => .anything

/-- The field as it ends up, if it can do without a value. -/
def byDefault (f : Field) : Option (Text × Value) :=
  match f.default with
  | some v => some (f.name, v)
  | none => if f.isParameter then none else some (f.name, .null)

/-- The fields as they end up, those by position from the values in order, all
others by default; `none` if a value is missing or left over. -/
def fill : List Field → List Value → Option (List (Text × Value))
  | [], [] => some []
  | [], _ :: _ => none
  | f :: fs, values =>
    match f.isPositional, values with
    | true, v :: rest => (fill fs rest).map ((f.name, v) :: ·)
    | _, _ => do
      let held ← f.byDefault
      let others ← fill fs values
      return held :: others

end Field

namespace Scalar

/-- The value of no column. -/
def empty : Scalar → Value
  | integer => .integer 0
  | text => .text []
  | real => .real (Binary64.zero false)
  | bytes => .bytes []

/-- How a column is read. -/
def getter : Scalar → Getter
  | integer => .int64
  | text => .fullText
  | real => .double
  | bytes => .content

end Scalar

namespace Shape

/-- What the first `count` columns are converted to before they are handed over:
to the annotations of the parameters, and beyond those to nothing but
themselves. -/
def annotations (count : Nat) : Shape → List Target
  | fields _ fs =>
    let targets := (fs.filter Field.isParameter).map Field.target
    targets.take count ++ List.replicate (count - targets.length) .anything
  | _ => List.replicate count .anything

/-- The values that are handed over. -/
def arguments (shape : Shape) (columns : List Column) : Except Fault (List Value) :=
  (columns.zip (shape.annotations columns.length)).mapM fun p => p.1.convert p.2

/-- What the values make. -/
def construct (shape : Shape) (columns : List Column) (values : List Value) : Except Fault Value :=
  match shape with
  | .columns => .ok (.list values)
  | exactly n => if values.length = n then .ok (.list values) else .error .wrongArguments
  | scalar s =>
    match columns with
    | [] => .ok s.empty
    | [c] => c.get s.getter
    | _ => .error .wrongArguments
  | sequence => if values.isEmpty then .ok (.list []) else .error .wrongArguments
  | fields name fs =>
    match Field.fill fs values with
    | some held => .ok (.record name held)
    | none => .error .wrongArguments

/-- What a shape makes of columns. -/
def build (shape : Shape) (columns : List Column) : Except Fault Value := do
  shape.construct columns (← shape.arguments columns)

end Shape

end RowScope
