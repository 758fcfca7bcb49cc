import RowScope.Fault
import RowScope.Path.Basic
import RowScope.Text.Codec

/-!
# Connection Targets

What an engine is asked to connect to. Usually that is the path as it was given.
A database that must not be written to is opened by its place in the file
system, written as a reference with a query that asks for reading only. The
query is told apart from the path by a question mark, so that every byte of the
path that could be mistaken for something else is written by its number.

## Main definitions

* `percentEncoded`: Bytes with everything but a few harmless ones written by
  number.
* `percentDecoded?`: The bytes again.
* `readOnlyTarget`: The reference to a place.
* `Path.nameFault?`: Why a name cannot be looked up.
* `Path.target`: What a path becomes under a configuration.
-/

namespace RowScope

namespace Path

/-- The bytes that stand for themselves: letters, digits, and `_`, `.`, `-`,
`~`, `/`. -/
def isHarmless (b : UInt8) : Bool :=
  let n := b.toNat
  (65 ≤ n && n ≤ 90) || (97 ≤ n && n ≤ 122) || (48 ≤ n && n ≤ 57) ||
    n == 95 || n == 46 || n == 45 || n == 126 || n == 47

/-- A digit of the hexadecimal system, letters in upper case. -/
def upperHexDigit (n : Nat) : Char :=
  if n < 10 then Char.ofNat (48 + n) else Char.ofNat (55 + n)

/-- A byte by its number. -/
def byNumber (b : UInt8) : List Char :=
  ['%', upperHexDigit (b.toNat / 16), upperHexDigit (b.toNat % 16)]

/-- Bytes with everything but the harmless ones written by number. -/
def percentEncoded (bytes : Bytes) : List Char :=
  bytes.flatMap fun b => if isHarmless b then [Char.ofNat b.toNat] else byNumber b

/-- The number of a hexadecimal digit in upper case. -/
def upperHexValue? (c : Char) : Option Nat :=
  if '0' ≤ c ∧ c ≤ '9' then some (c.toNat - 48)
  else if 'A' ≤ c ∧ c ≤ 'F' then some (c.toNat - 55)
  else none

/-- The bytes that some characters encode. -/
def percentDecoded? : List Char → Option Bytes
  | [] => some []
  | '%' :: high :: low :: rest => do
    let h ← upperHexValue? high
    let l ← upperHexValue? low
    let bytes ← percentDecoded? rest
    return UInt8.ofNat (h * 16 + l) :: bytes
  | c :: rest => (percentDecoded? rest).map (UInt8.ofNat c.toNat :: ·)

/-- The reference to a place that asks for reading only. -/
def readOnlyTarget (bytes : Bytes) : Text :=
  Text.ofString "file://" ++ Text.ofChars (percentEncoded bytes) ++ Text.ofString "?mode=ro"

end Path

/-- The path of a database that lives in memory. -/
def memoryPath : Text := Text.ofString ":memory:"

namespace Path

/-- Why nothing can be looked up under a name: it has no bytes, or a NUL among
them. -/
def nameFault? (name : Text) : Option Fault :=
  if (Text.encode name).isNone then some .pathNotEncodable
  else if name.any (·.val == 0) then some .nulInPath
  else none

/-- What a path becomes, and whether it is a reference. A database in memory is
never a file, and thus never opened as one. On the way to a place every name is
looked up, also one that two dots leave again. -/
def target (readOnly : Bool) (here : Path) (path : Text) : Except Fault (Text × Bool) :=
  if readOnly && path != memoryPath then
    match (Path.parse path).names.findSome? nameFault? with
    | some fault => .error fault
    | none =>
      match Text.encode (Path.placeText (Path.place here (Path.parse path))) with
      | some bytes => .ok (Path.readOnlyTarget bytes, true)
      | none => .error .pathNotEncodable
  else .ok (path, false)

end Path

end RowScope
