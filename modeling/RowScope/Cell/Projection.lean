import RowScope.Cell.Basic
import RowScope.Number.RealText
import RowScope.Number.Scan
import RowScope.Text.Codec

/-!
# Reading a Cell as Something Else

Every cell can be read as an integer, as a real, as text and as bytes, whatever
its storage class: a number reads as its decimal text, a text as the number it
starts with, and NULL as zero or as nothing. What a conversion cannot deliver is
a fault, and there are few: the integer reading of a text with thousands of
digits, and values that no engine delivers.

## Main definitions

* `clamp64`, `wrap32`: The two ways of fitting an integer into a width.
* `Cell.text?`, `Cell.bytes?`: The text and the bytes of a cell; NULL has none.
* `Cell.int64`, `Cell.int32`, `Cell.uint32`: The integer readings.
* `Cell.double`: The reading as a real.
* `Cell.byteCount`: How many bytes the text or blob form has.
-/

namespace RowScope

/-- The smallest 64-bit integer, `-2 ^ 63`. -/
def minInt64 : Int := -0x8000000000000000

/-- The largest 64-bit integer, `2 ^ 63 - 1`. -/
def maxInt64 : Int := 0x7FFFFFFFFFFFFFFF

/-- The nearest integer of 64 bits. -/
def clamp64 (n : Int) : Int :=
  max minInt64 (min maxInt64 n)

/-- The low 32 bits of an integer, without sign. -/
def low32 (n : Int) : Int :=
  n % 0x100000000

/-- The low 32 bits of an integer, as a signed number. -/
def wrap32 (n : Int) : Int :=
  low32 (n + 0x80000000) - 0x80000000

/-- Whole numbers of more digits than this, leading zeros included, are neither
read nor written. -/
def digitLimit : Nat := 4300

/-- The decimal form of an integer within the limit. -/
def integerText (n : Int) : Except CellFault Text :=
  if decimalLength n.natAbs ≤ digitLimit then .ok (Text.ofInt n) else .error .tooManyDigits

/-- A real as an integer of 64 bits: zero for what is not a number, a bound for
what is not strictly between the two bounds as doubles, and toward zero for the
others. The upper bound is not a double itself and is rounded up. -/
def Binary64.toInt64 (x : Binary64) : Int :=
  if x.isNaN then 0
  else if x.atMost (Binary64.ofInt minInt64) then minInt64
  else if (Binary64.ofInt maxInt64).atMost x then maxInt64
  else x.truncate

/-- An integer as a real, if it is not beyond the doubles. -/
def doubleOfInt (n : Int) : Except CellFault Binary64 :=
  let x := Binary64.ofInt n
  if x.isInfinite then .error .beyondDoubles else .ok x

/-- The integer that a text starts with, clamped to 64 bits; zero if there is
none. -/
def textToInt64 (t : Text) : Except CellFault Int :=
  match Scan.whole? t with
  | none => .ok 0
  | some w =>
    if w.digits.length ≤ digitLimit then .ok (clamp64 w.toInt) else .error .tooManyDigits

/-- The real that a text starts with; zero if there is none. -/
def textToDouble (t : Text) : Binary64 :=
  match Scan.decimal? t with
  | none => Binary64.zero false
  | some d => d.toBinary64

namespace Cell

/-- The text of a cell; NULL has none. -/
def text? : Cell → Except CellFault (Option Text)
  | null => .ok none
  | integer n => (integerText n).map some
  | real x => .ok (some x.text)
  | text t => .ok (some t)
  | blob bytes => .ok (some (Text.decode bytes))
  | window bytes => .ok (some (Text.decode bytes))
  | foreign _ (some content) => .ok (some (Text.decode content))
  | foreign _ none => .error .noBytes

/-- The bytes of a text. -/
def encoded (t : Text) : Except CellFault Bytes :=
  match Text.encode t with
  | some bytes => .ok bytes
  | none => .error .notEncodable

/-- The bytes of a cell: those of its text, unless it is a blob; NULL has
none. -/
def bytes? : Cell → Except CellFault (Option Bytes)
  | null => .ok none
  | blob bytes => .ok (some bytes)
  | window bytes => .ok (some bytes)
  | foreign _ (some content) => .ok (some content)
  | foreign _ none => .error .noBytes
  | integer n => do return some (← encoded (← integerText n))
  | real x => (encoded x.text).map some
  | text t => (encoded t).map some

/-- The integer reading. An INTEGER is taken as it is, without clamping. -/
def int64 : Cell → Except CellFault Int
  | null => .ok 0
  | integer n => .ok n
  | real x => .ok x.toInt64
  | text t => textToInt64 t
  | blob bytes => textToInt64 (Text.decode bytes)
  | window bytes => textToInt64 (Text.decode bytes)
  | foreign _ (some content) => textToInt64 (Text.decode content)
  | foreign _ none => .error .noBytes

/-- The low 32 bits of the integer reading, signed. -/
def int32 (c : Cell) : Except CellFault Int :=
  c.int64.map wrap32

/-- The low 32 bits of the integer reading, unsigned. -/
def uint32 (c : Cell) : Except CellFault Int :=
  c.int64.map low32

/-- The reading as a real. -/
def double : Cell → Except CellFault Binary64
  | null => .ok (Binary64.zero false)
  | integer n => doubleOfInt n
  | real x => .ok x
  | text t => .ok (textToDouble t)
  | blob bytes => .ok (textToDouble (Text.decode bytes))
  | window bytes => .ok (textToDouble (Text.decode bytes))
  | foreign _ (some content) => .ok (textToDouble (Text.decode content))
  | foreign _ none => .error .noBytes

/-- How many bytes the cell has; none for NULL. -/
def byteCount (c : Cell) : Except CellFault Nat :=
  c.bytes?.map fun bytes => (bytes.getD []).length

/-- The whole text, nothing for NULL. -/
def fullText (c : Cell) : Except CellFault Text :=
  c.text?.map fun t => t.getD []

/-- The whole content, nothing for NULL. -/
def content (c : Cell) : Except CellFault Bytes :=
  c.bytes?.map fun bytes => bytes.getD []

/-- The text as far as the first NUL; `default` for NULL. -/
def textOr (c : Cell) (default : Text) : Except CellFault Text :=
  c.text?.map fun t => (t.map Text.beforeNul).getD default

end Cell

end RowScope
