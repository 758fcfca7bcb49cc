import RowScope.Number.Rounding
import RowScope.Text.Basic

/-!
# Laying Out Decimals

Significant digits and an exponent become a text: positionally, with zeros
filled in, or with one digit before the point and an exponent. Which exponents
are positional, and whether a lone leading digit takes a `.0` in exponent form,
are decisions of the format and stand in one record.

## Main definitions

* `Scientific`: Digits `d₀ d₁ …` and an exponent `e`, for `d₀.d₁… * 10 ^ e`.
* `Scientific.ofRatio`: A quotient rounded to a number of significant digits.
* `Scientific.trimmed`: The same value without trailing zeros.
* `Layout`: The decisions.
* `Layout.render`: The text.
-/

namespace RowScope

/-- A positive decimal by its significant digits: `coefficient` has `places`
digits, the first of which counts powers of ten to the `exponent`. -/
structure Scientific where
  /-- The digits, read as one number. -/
  coefficient : Nat
  /-- The power of ten that the first digit counts. -/
  exponent : Int
deriving DecidableEq, Repr

namespace Scientific

/-- The quotient `num / den` rounded to `places` significant digits, a tie going
to the even digit. A round-up past the last digit moves to the next power of
ten. -/
def ofRatio (places num den : Nat) : Scientific :=
  let e := floorLog10 num den
  let shift : Int := (places : Int) - 1 - e
  let c := roundQuotient (scaled 10 num shift) (scaled 10 den (-shift))
  if c = Nat.pow 10 places then ⟨Nat.pow 10 (places - 1), e + 1⟩ else ⟨c, e⟩

/-- The digits without the zeros at their end; one digit always stays. -/
def trimmed (s : Scientific) : List Char :=
  let digits := Nat.toDigits 10 s.coefficient
  match (digits.reverse.dropWhile (· == '0')).reverse with
  | [] => ['0']
  | ds => ds

end Scientific

/-- The decisions of a format for reals. -/
structure Layout where
  /-- The least exponent that is written positionally. -/
  plainFrom : Int
  /-- The least exponent above it that is not. -/
  plainBelow : Int
  /-- A single digit before an exponent is followed by `.0`. -/
  pointBeforeExponent : Bool

namespace Layout

/-- At least two digits of an exponent, with its sign in front. -/
def exponentMark (e : Int) : List Char :=
  let digits := Nat.toDigits 10 e.natAbs
  'e' :: (if e < 0 then '-' else '+') :: (if digits.length < 2 then '0' :: digits else digits)

/-- Digits after the point; a `0` stands where there are none. -/
def fraction : List Char → List Char
  | [] => ['0']
  | ds => ds

/-- Positional form. -/
def plain (digits : List Char) (e : Int) : List Char :=
  if e < 0 then '0' :: '.' :: (List.replicate (-e - 1).toNat '0' ++ digits)
  else
    let width := e.toNat + 1
    let whole := digits.take width
    whole ++ List.replicate (width - whole.length) '0' ++ '.' :: fraction (digits.drop width)

/-- Exponent form. -/
def withExponent (layout : Layout) : List Char → Int → List Char
  | [], e => '0' :: exponentMark e
  | [d], e => d :: ((if layout.pointBeforeExponent then ['.', '0'] else []) ++ exponentMark e)
  | d :: ds, e => d :: '.' :: (ds ++ exponentMark e)

/-- The text of digits without trailing zeros, the first of which counts powers
of ten to `e`. -/
def render (layout : Layout) (digits : List Char) (e : Int) : List Char :=
  if layout.plainFrom ≤ e ∧ e < layout.plainBelow then plain digits e
  else layout.withExponent digits e

end Layout

end RowScope
