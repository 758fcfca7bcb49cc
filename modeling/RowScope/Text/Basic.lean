/-!
# Text

Text as this library carries it: a list of code points. `String` is not wide
enough, because a TEXT cell may hold bytes that are not UTF-8. Each such byte
travels as a surrogate code point of its own (a *stray*), so that the bytes can
be written back unchanged; every other text a program meets is free of
surrogates.

## Main definitions

* `CodePoint`: A number below `0x110000`.
* `Text`: A list of code points.
* `CodePoint.ofNat`, `CodePoint.ofChar`: The code point of a number and of a
  character.
* `CodePoint.isSurrogate`: The code points that name no character.
* `CodePoint.stray`: The code point that stands for a byte that is not text.
* `Text.ofString`, `Text.toString?`: The passage from and to `String`.
* `Text.beforeNul`: What a reader sees that stops at the first NUL.
* `Text.joined`: Texts with a separator between them.
-/

namespace RowScope

/-- A code point, surrogates included. -/
abbrev CodePoint := Fin 0x110000

/-- A text is the list of its code points. -/
abbrev Text := List CodePoint

/-- Bytes, as a list. -/
abbrev Bytes := List UInt8

namespace CodePoint

/-- The code point of a character. -/
def ofChar (c : Char) : CodePoint :=
  ⟨c.toNat, by
    have h := c.valid
    simp only [UInt32.isValidChar, Nat.isValidChar] at h
    show c.val.toNat < 0x110000
    omega⟩

/-- The code point of a number; meant for numbers that are known to be small
enough. -/
def ofNat (n : Nat) : CodePoint :=
  ⟨n % 0x110000, Nat.mod_lt _ (by decide)⟩

/-- The code points that are no character. -/
def isSurrogate (c : CodePoint) : Bool :=
  0xD800 ≤ c.val && c.val ≤ 0xDFFF

/-- The code point that carries a byte which belongs to no character. -/
def stray (b : UInt8) : CodePoint :=
  ⟨0xDC00 + b.toNat, by have := b.toNat_lt; omega⟩

/-- The code points that `stray` yields for bytes above ASCII, the only ones
that can go astray. -/
def isStray (c : CodePoint) : Bool :=
  0xDC80 ≤ c.val && c.val ≤ 0xDCFF

/-- The character of a code point, if it has one. -/
def toChar? (c : CodePoint) : Option Char :=
  if h : c.val.isValidChar then some (Char.ofNatAux c.val h) else none

/-- An ASCII digit. -/
def isDigit (c : CodePoint) : Bool :=
  48 ≤ c.val && c.val ≤ 57

/-- The number that an ASCII digit writes. -/
def digitValue (c : CodePoint) : Nat :=
  c.val - 48

/-- An ASCII letter. -/
def isLetter (c : CodePoint) : Bool :=
  (65 ≤ c.val && c.val ≤ 90) || (97 ≤ c.val && c.val ≤ 122)

/-- The blanks that may stand in front of a number in a cell: space, and tab to
carriage return. -/
def isBlank (c : CodePoint) : Bool :=
  c.val == 32 || (9 ≤ c.val && c.val ≤ 13)

end CodePoint

namespace Text

/-- The code points of a string. -/
def ofString (s : String) : Text :=
  s.toList.map CodePoint.ofChar

/-- The text of some characters. -/
def ofChars (cs : List Char) : Text :=
  cs.map CodePoint.ofChar

/-- The characters of a text, if it holds nothing else. -/
def toChars? (t : Text) : Option (List Char) :=
  t.mapM CodePoint.toChar?

/-- The string of a text without surrogates. -/
def toString? (t : Text) : Option String :=
  (toChars? t).map String.ofList

/-- The decimal digits of a number. -/
def ofNat (n : Nat) : Text :=
  ofChars (Nat.toDigits 10 n)

/-- The decimal form of an integer. -/
def ofInt : Int → Text
  | .ofNat n => ofNat n
  | .negSucc n => CodePoint.ofChar '-' :: ofNat (n + 1)

/-- What comes before the first NUL, or everything if there is none. -/
def beforeNul (t : Text) : Text :=
  t.takeWhile (fun c => c.val != 0)

/-- The texts one after the other, with `separator` between them. -/
def joined (separator : Text) : List Text → Text
  | [] => []
  | [t] => t
  | t :: ts => t ++ separator ++ joined separator ts

end Text

end RowScope
