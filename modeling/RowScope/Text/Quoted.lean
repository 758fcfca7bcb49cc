import RowScope.Text.Printable

/-!
# Quoted Text

How a text is shown inside a message: between quotes, on one line, with
everything that could not be read back escaped. Single quotes are used unless
the text holds one and no double quote, so that most texts need no escape at
all.

Bytes are shown as the ASCII they may stand for. The bytes of a buffer, which
can be changed, differ from others in one point: a single quote among them is
escaped even where double quotes are around.

## Main definitions

* `hexDigits`: A number in lower-case hexadecimal, of at least a given width.
* `quoteMark`: The quote that a text is put between.
* `escaped`: One code point inside the quotes.
* `quoted`: A text between quotes.
* `quotedBytes`: A byte string between quotes.
* `quotedBuffer`: The bytes of a changeable buffer between quotes.
-/

namespace RowScope

namespace Text

/-- A number in hexadecimal, filled up with zeros to `width` digits. -/
def hexDigits (width n : Nat) : Text :=
  let digits := ofChars (Nat.toDigits 16 n)
  List.replicate (width - digits.length) (CodePoint.ofChar '0') ++ digits

/-- The escape of a code point by its number: two, four or eight digits,
whichever it fits. -/
def numbered (c : CodePoint) : Text :=
  if c.val < 0x100 then ofString "\\x" ++ hexDigits 2 c.val
  else if c.val < 0x10000 then ofString "\\u" ++ hexDigits 4 c.val
  else ofString "\\U" ++ hexDigits 8 c.val

/-- A double quote if the text holds single quotes and no double quote; else a
single quote. -/
def quoteMark (t : Text) : CodePoint :=
  if t.any (·.val == 39) && !t.any (·.val == 34) then CodePoint.ofChar '"'
  else CodePoint.ofChar '\''

/-- The escapes that have a letter of their own, the backslash and one kind of
quote. -/
def shortEscape? (mark c : CodePoint) : Option Text :=
  if c = mark || c.val == 92 then some [CodePoint.ofChar '\\', c]
  else if c.val == 10 then some (ofString "\\n")
  else if c.val == 13 then some (ofString "\\r")
  else if c.val == 9 then some (ofString "\\t")
  else none

/-- One code point between quotes of the given kind. -/
def escaped (mark c : CodePoint) : Text :=
  match shortEscape? mark c with
  | some e => e
  | none => if c.isPrintable then [c] else numbered c

/-- A text between quotes, as messages show it. -/
def quoted (t : Text) : Text :=
  let mark := quoteMark t
  mark :: t.flatMap (escaped mark) ++ [mark]

/-- The code points with the numbers of the bytes. -/
def ofBytes (bytes : Bytes) : Text :=
  bytes.map fun b => ⟨b.toNat, by have := b.toNat_lt; omega⟩

/-- One byte between quotes, where `guarded` is the quote that takes a
backslash. -/
def escapedByte (guarded c : CodePoint) : Text :=
  match shortEscape? guarded c with
  | some e => e
  | none => if c.val < 0x7F && 0x20 ≤ c.val then [c] else numbered c

/-- Bytes between quotes: ASCII as in a text, every other byte by its number. -/
def quotedBytes (bytes : Bytes) : Text :=
  let t := ofBytes bytes
  let mark := quoteMark t
  CodePoint.ofChar 'b' :: mark :: t.flatMap (escapedByte mark) ++ [mark]

/-- The bytes of a buffer between quotes: the single quote is escaped inside
either kind. -/
def quotedBuffer (bytes : Bytes) : Text :=
  let t := ofBytes bytes
  let mark := quoteMark t
  CodePoint.ofChar 'b' :: mark :: t.flatMap (escapedByte (CodePoint.ofChar '\'')) ++ [mark]

end Text

end RowScope
