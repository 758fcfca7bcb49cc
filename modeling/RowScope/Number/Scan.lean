import RowScope.Number.Rounding
import RowScope.Text.Basic

/-!
# Numbers at the Head of a Text

A text cell that is read as a number counts for the longest number it starts
with, and for zero if it starts with none. Leading blanks are passed over; only
ASCII blanks and digits count. There are two grammars, one for whole numbers and
one with fraction and exponent. A point or an exponent mark that cannot be
completed does not belong to the number.

## Main definitions

* `Scan.digits`: The digits at the head of a text, and the rest.
* `Scan.sign`: An optional sign.
* `Scan.whole?`: The whole number at the head of a text.
* `Scan.decimal?`: The decimal number at the head of a text.
-/

namespace RowScope

namespace Scan

/-- The digits at the head of a text, and what follows them. -/
def digits (t : Text) : List Nat × Text :=
  ((t.takeWhile CodePoint.isDigit).map CodePoint.digitValue, t.dropWhile CodePoint.isDigit)

/-- The number that digits write. -/
def value (ds : List Nat) : Nat :=
  ds.foldl (fun n d => n * 10 + d) 0

/-- An optional sign, and what follows it; `true` is a minus. -/
def sign : Text → Bool × Text
  | [] => (false, [])
  | c :: rest =>
    if c.val = 45 then (true, rest)
    else if c.val = 43 then (false, rest)
    else (false, c :: rest)

/-- The text behind its leading blanks. -/
def pastBlanks (t : Text) : Text :=
  t.dropWhile CodePoint.isBlank

/-- A whole number: its sign and its digits, leading zeros included. -/
structure Whole where
  /-- There is a minus. -/
  negative : Bool
  /-- The digits; there is at least one. -/
  digits : List Nat
deriving DecidableEq, Repr

/-- The number itself. -/
def Whole.toInt (w : Whole) : Int :=
  if w.negative then -(value w.digits : Int) else value w.digits

/-- The whole number that a text starts with. -/
def whole? (t : Text) : Option Whole :=
  let (negative, body) := sign (pastBlanks t)
  match (digits body).1 with
  | [] => none
  | ds => some ⟨negative, ds⟩

/-- A decimal number: `digits * 10 ^ exponent`, signed. -/
structure Decimal where
  /-- There is a minus. -/
  negative : Bool
  /-- The digits before and after the point, read as one number. -/
  coefficient : Nat
  /-- The power of ten that the last digit counts. -/
  exponent : Int
deriving DecidableEq, Repr

/-- The double nearest to a decimal. -/
def Decimal.toBinary64 (d : Decimal) : Binary64 :=
  Binary64.ofDecimal d.negative d.coefficient d.exponent

/-- The digits before and after an optional point, and what follows. A point
needs digits on one side of it. -/
def mantissa? (t : Text) : Option (List Nat × List Nat × Text) :=
  match digits t with
  | ([], []) => none
  | ([], c :: rest) =>
    if c.val = 46 then
      match digits rest with
      | ([], _) => none
      | (after, rest) => some ([], after, rest)
    else none
  | (before, c :: rest) =>
    if c.val = 46 then
      let (after, rest) := digits rest
      some (before, after, rest)
    else some (before, [], c :: rest)
  | (before, []) => some (before, [], [])

/-- A complete exponent and what follows it; an incomplete one is left where it
is. -/
def exponent (t : Text) : Int × Text :=
  match t with
  | [] => (0, [])
  | c :: rest =>
    if c.val = 101 || c.val = 69 then
      let (negative, body) := sign rest
      match digits body with
      | ([], _) => (0, t)
      | (ds, rest) => (if negative then -(value ds : Int) else value ds, rest)
    else (0, t)

/-- The decimal number that a text starts with right away, and what follows
it. -/
def unblanked? (t : Text) : Option (Decimal × Text) :=
  let (negative, body) := sign t
  match mantissa? body with
  | none => none
  | some (before, after, rest) =>
    let (e, rest) := exponent rest
    some (⟨negative, value (before ++ after), e - after.length⟩, rest)

/-- The decimal number that a text starts with. -/
def decimal? (t : Text) : Option Decimal :=
  (unblanked? (pastBlanks t)).map (·.1)

end Scan

end RowScope
