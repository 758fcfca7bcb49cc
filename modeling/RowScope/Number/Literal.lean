import RowScope.Number.Scan

/-!
# Numbers Written Out by Hand

A setting that should be a number may be given as a text. Such a text must be a
number as a whole: blanks may surround it, an underscore may separate two
digits, digits of any script count, and infinity and not-a-number go by their
names in any letter case.

The blanks are the white space of the Unicode character database, and the digits
its decimal digits (version 14); both are listed here.

## Main definitions

* `blanks`: The white space code points.
* `zeros`: The digit zero of each script; nine more digits follow each.
* `asciiForm`: A text with its blanks and digits brought to ASCII.
* `withoutSeparators?`: A text without its underscores, if each stands between
  two digits.
* `whole?`: The integer that a text writes.
* `real?`: The double that a text writes.
-/

namespace RowScope

namespace Literal

/-- White space, one range a line where there are several in a row. -/
def blanks : List (Nat × Nat) :=
  [(0x9, 0xD), (0x20, 0x20), (0x85, 0x85), (0xA0, 0xA0), (0x1680, 0x1680), (0x2000, 0x200A),
    (0x2028, 0x2029), (0x202F, 0x202F), (0x205F, 0x205F), (0x3000, 0x3000)]

/-- The digit zero of each script that has decimal digits. -/
def zeros : List Nat :=
  [
    0x30, 0x660, 0x6F0, 0x7C0, 0x966, 0x9E6, 0xA66, 0xAE6, 0xB66, 0xBE6, 0xC66, 0xCE6, 0xD66,
    0xDE6, 0xE50, 0xED0, 0xF20, 0x1040, 0x1090, 0x17E0, 0x1810, 0x1946, 0x19D0, 0x1A80, 0x1A90,
    0x1B50, 0x1BB0, 0x1C40, 0x1C50, 0xA620, 0xA8D0, 0xA900, 0xA9D0, 0xA9F0, 0xAA50, 0xABF0,
    0xFF10, 0x104A0, 0x10D30, 0x11066, 0x110F0, 0x11136, 0x111D0, 0x112F0, 0x11450, 0x114D0,
    0x11650, 0x116C0, 0x11730, 0x118E0, 0x11950, 0x11C50, 0x11D50, 0x11DA0, 0x16A60, 0x16AC0,
    0x16B50, 0x1D7CE, 0x1D7D8, 0x1D7E2, 0x1D7EC, 0x1D7F6, 0x1E140, 0x1E2F0, 0x1E950, 0x1FBF0
  ]

/-- White space of any script. -/
def isBlank (c : CodePoint) : Bool :=
  blanks.any fun r => r.1 ≤ c.val && c.val ≤ r.2

/-- The ASCII digit of a decimal digit, and a space for a blank; other code
points stay. -/
def toAscii (c : CodePoint) : CodePoint :=
  if isBlank c then CodePoint.ofChar ' '
  else
    match zeros.find? fun z => z ≤ c.val && c.val < z + 10 with
    | some z => CodePoint.ofNat (48 + (c.val - z))
    | none => c

/-- A text with ASCII blanks and digits. -/
def asciiForm (t : Text) : Text :=
  t.map toAscii

/-- A text without the blanks around it. -/
def stripped (t : Text) : Text :=
  ((t.dropWhile isBlank).reverse.dropWhile isBlank).reverse

/-- The text without its underscores; each must stand between two digits.
`afterDigit` says whether the code point before was a digit. -/
def withoutSeparators? (afterDigit : Bool) : Text → Option Text
  | [] => some []
  | c :: rest =>
    if c.val = 95 then
      match rest with
      | d :: _ => if afterDigit && d.isDigit then withoutSeparators? false rest else none
      | [] => none
    else (withoutSeparators? c.isDigit rest).map (c :: ·)

/-- The integer that a whole text writes. -/
def whole? (t : Text) : Option Scan.Whole := do
  let (negative, body) := Scan.sign (← withoutSeparators? false (stripped (asciiForm t)))
  let (digits, rest) := Scan.digits body
  if rest.isEmpty && !digits.isEmpty then some ⟨negative, digits⟩ else none

/-- An ASCII letter in lower case. -/
def lower (c : CodePoint) : CodePoint :=
  if 65 ≤ c.val && c.val ≤ 90 then CodePoint.ofNat (c.val + 32) else c

/-- The doubles that go by a name. -/
def named? (t : Text) : Option Binary64 :=
  let (negative, name) := Scan.sign t
  let name := name.map lower
  if name = Text.ofString "inf" ∨ name = Text.ofString "infinity" then
    some (Binary64.infinity negative)
  else if name = Text.ofString "nan" then some Binary64.nan
  else none

/-- The double that a whole text writes. -/
def real? (t : Text) : Option Binary64 :=
  match withoutSeparators? false (stripped (asciiForm t)) with
  | none => none
  | some t =>
    match Scan.unblanked? t with
    | some (d, []) => some d.toBinary64
    | _ => named? t

end Literal

end RowScope
