import RowScope.Number.Layout

/-!
# The Text of a REAL

A REAL cell reads as text with fifteen significant digits and always with a
decimal point, so that the text still shows that it was a real. Magnitudes from
`10 ^ -4` up to fifteen digits before the point are written positionally, all
others with an exponent of at least two digits.

## Main definitions

* `realLayout`: The layout of REAL cells.
* `Binary64.text`: The text of a REAL.
-/

namespace RowScope

/-- Positional from `10 ^ -4` to below `10 ^ 15`; a point in every number. -/
def realLayout : Layout := ⟨-4, 15, true⟩

/-- The significant digits of a REAL cell's text. -/
def realPlaces : Nat := 15

namespace Binary64

/-- The magnitude of a finite double as text. -/
def magnitudeText (x : Binary64) : List Char :=
  if x.isZero then realLayout.render ['0'] 0
  else
    let s := Scientific.ofRatio realPlaces x.ratio.1 x.ratio.2
    realLayout.render s.trimmed s.exponent

/-- The text of a REAL. -/
def text (x : Binary64) : Text :=
  if x.isNaN then Text.ofString "nan"
  else if x.isInfinite then Text.ofString (if x.negative then "-Inf" else "Inf")
  else Text.ofChars (if x.negative then '-' :: x.magnitudeText else x.magnitudeText)

end Binary64

end RowScope
