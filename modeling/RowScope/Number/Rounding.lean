import RowScope.Number.Binary64

/-!
# Rounding

The nearest integer to a quotient, and the nearest double to a rational or a
decimal. At an exact tie the even neighbour wins, everywhere.

A quotient is rounded to a double by finding the spacing of doubles at its size,
rounding the quotient to a whole number of spacings, and adding up the rank. A
significand that rounds up to the next power of two needs no special case,
because the rank then simply is the first one of the next binade; the same holds
between the subnormals and the first binade, and at the infinity.

## Main definitions

* `roundQuotient`: The integer nearest to a quotient.
* `floorLog2`, `floorLog10`: The exponent of the leading binary or decimal digit
  of a quotient.
* `Binary64.ofRatio`: The double nearest to a quotient.
* `Binary64.ofDecimal`: The double nearest to a decimal.
* `Binary64.ofInt`: The double nearest to an integer.
-/

namespace RowScope

/-- The integer nearest to `num / den`; of two equally near ones, the even
one. -/
def roundQuotient (num den : Nat) : Nat :=
  let q := num / den
  let r := num % den
  if 2 * r < den then q
  else if den < 2 * r then q + 1
  else q + q % 2

/-- The greatest `e` with `2 ^ e ≤ num / den`, for a positive quotient. -/
def floorLog2 (num den : Nat) : Int :=
  let d : Int := (Nat.log2 num : Int) - Nat.log2 den
  if scaled 2 den d ≤ scaled 2 num (-d) then d else d - 1

/-- How many decimal digits a number has. -/
def decimalLength (n : Nat) : Nat :=
  (Nat.toDigits 10 n).length

/-- The greatest `e` with `10 ^ e ≤ num / den`, for a positive quotient. A
quotient of at least one has as many digits as its integer part; below one, the
least power of ten that lifts it to one has as many zeros as the number before
its rounded-up inverse has digits. -/
def floorLog10 (num den : Nat) : Int :=
  if den ≤ num then (decimalLength (num / den) : Int) - 1
  else -(decimalLength ((den + num - 1) / num - 1) : Int)

namespace Binary64

/-- The double nearest to `num / den`. -/
def ofRatio (negative : Bool) (num den : Nat) : Binary64 :=
  if num = 0 then zero negative
  else
    let e := max (floorLog2 num den - 52) (-1074)
    let m := roundQuotient (scaled 2 num (-e)) (scaled 2 den e)
    ofRank negative ((e + 1074).toNat * binade + m)

/-- The double nearest to `digits * 10 ^ exponent`. Exponents far outside the
range of doubles are decided without computing the power. -/
def ofDecimal (negative : Bool) (digits : Nat) (exponent : Int) : Binary64 :=
  if digits = 0 then zero negative
  else if 400 < exponent then infinity negative
  else if (Nat.log2 digits : Int) + 3 * exponent < -1080 then zero negative
  else ofRatio negative (scaled 10 digits exponent) (scaled 10 1 (-exponent))

/-- The double nearest to an integer. -/
def ofInt (n : Int) : Binary64 :=
  ofRatio (n < 0) n.natAbs 1

end Binary64

end RowScope
