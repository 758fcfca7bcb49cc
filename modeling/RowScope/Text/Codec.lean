import RowScope.Text.Basic

/-!
# The Text Codec

UTF-8 in both directions, without loss. `decode` accepts every byte string:
where the bytes are well-formed UTF-8 it reads the character they encode, and
any other byte becomes a stray code point. `encode` writes a stray back as its
byte, and refuses exactly the surrogates that are not strays, since no bytes
decode to them.

The decoder passes over the continuation bytes of a sequence it has read by
counting them, rather than by dropping them, so that it recurses on the byte
list itself.

## Main definitions

* `sequence?`: The character at the head of a byte string, and how many more
  bytes it takes.
* `decode`: The text of any bytes.
* `encodePoint`, `encode`: The bytes of a code point and of a text.
* `decodeStrict?`: The text of well-formed bytes, and of no others.
-/

namespace RowScope

namespace Text

/-- A byte that continues a sequence. -/
def isContinuation (b : UInt8) : Bool :=
  0x80 ≤ b.toNat && b.toNat ≤ 0xBF

/-- The low six bits of a continuation byte. -/
def payload (b : UInt8) : Nat :=
  b.toNat - 0x80

/-- The bytes that may follow a lead byte of three bytes: no overlong form, no
surrogate. -/
def isSecondOfThree (lead second : UInt8) : Bool :=
  if lead.toNat == 0xE0 then 0xA0 ≤ second.toNat && second.toNat ≤ 0xBF
  else if lead.toNat == 0xED then 0x80 ≤ second.toNat && second.toNat ≤ 0x9F
  else isContinuation second

/-- The bytes that may follow a lead byte of four bytes: no overlong form,
nothing above the last code point. -/
def isSecondOfFour (lead second : UInt8) : Bool :=
  if lead.toNat == 0xF0 then 0x90 ≤ second.toNat && second.toNat ≤ 0xBF
  else if lead.toNat == 0xF4 then 0x80 ≤ second.toNat && second.toNat ≤ 0x8F
  else isContinuation second

/-- The character whose encoding starts with `lead`, and the number of bytes it
takes from those that follow; `none` if the bytes are not well-formed here. -/
def sequence? (lead : UInt8) (follow : Bytes) : Option (CodePoint × Nat) :=
  let a := lead.toNat
  if a < 0x80 then some (CodePoint.ofNat a, 0)
  else if a < 0xC2 then none
  else if a < 0xE0 then
    match follow with
    | b :: _ =>
      if isContinuation b then some (CodePoint.ofNat ((a - 0xC0) * 64 + payload b), 1) else none
    | _ => none
  else if a < 0xF0 then
    match follow with
    | b :: c :: _ =>
      if isSecondOfThree lead b && isContinuation c then
        some (CodePoint.ofNat ((a - 0xE0) * 4096 + payload b * 64 + payload c), 2)
      else none
    | _ => none
  else if a < 0xF5 then
    match follow with
    | b :: c :: d :: _ =>
      if isSecondOfFour lead b && isContinuation c && isContinuation d then
        some (CodePoint.ofNat
          ((a - 0xF0) * 262144 + payload b * 4096 + payload c * 64 + payload d), 3)
      else none
    | _ => none
  else none

/-- Decodes after passing over `skip` bytes that belong to a character already
read. -/
def decodeAfter : Nat → Bytes → Text
  | _, [] => []
  | skip + 1, _ :: rest => decodeAfter skip rest
  | 0, lead :: rest =>
    match sequence? lead rest with
    | some (c, taken) => c :: decodeAfter taken rest
    | none => CodePoint.stray lead :: decodeAfter 0 rest

/-- The text of any bytes; bytes that are not UTF-8 become strays. -/
def decode (bytes : Bytes) : Text :=
  decodeAfter 0 bytes

/-- The bytes of a code point. -/
def encodePoint (c : CodePoint) : Option Bytes :=
  let n := c.val
  if n < 0x80 then some [UInt8.ofNat n]
  else if n < 0x800 then some [UInt8.ofNat (0xC0 + n / 64), UInt8.ofNat (0x80 + n % 64)]
  else if c.isStray then some [UInt8.ofNat (n - 0xDC00)]
  else if c.isSurrogate then none
  else if n < 0x10000 then
    some [UInt8.ofNat (0xE0 + n / 4096), UInt8.ofNat (0x80 + n / 64 % 64),
      UInt8.ofNat (0x80 + n % 64)]
  else
    some [UInt8.ofNat (0xF0 + n / 262144), UInt8.ofNat (0x80 + n / 4096 % 64),
      UInt8.ofNat (0x80 + n / 64 % 64), UInt8.ofNat (0x80 + n % 64)]

/-- The bytes of a text; `none` if it holds a surrogate that is no stray. -/
def encode : Text → Option Bytes
  | [] => some []
  | c :: rest => do
    let head ← encodePoint c
    let tail ← encode rest
    return head ++ tail

/-- The text of bytes that are well-formed throughout. -/
def decodeStrict? (bytes : Bytes) : Option Text :=
  let t := decode bytes
  if t.any CodePoint.isStray then none else some t

end Text

end RowScope
