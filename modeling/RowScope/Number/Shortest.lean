import RowScope.Number.Layout

/-!
# Shortest Decimals

The fewest digits that read back as the same double. For each number of digits
the two decimals next to the value are tried; the first number of digits at
which one of them reads back wins, and of two that do the nearer is taken, the
even one at a tie.

Settings are shown in this form, while cells have a fixed number of digits.

## Main definitions

* `shortest`: Digits and exponent.
* `settingLayout`: Positional from `10 ^ -4` to below `10 ^ 16`.
* `Binary64.shortText`: The text.
-/

namespace RowScope

namespace Binary64

/-- A decimal of `places` digits whose first digit counts powers of ten to `e`
reads back as the magnitude of `x`. -/
def readsBack (x : Binary64) (places coefficient : Nat) (e : Int) : Bool :=
  (ofDecimal false coefficient (e - (places - 1 : Nat))).rank == x.rank

/-- The nearer of two neighbours on a decimal grid, the even one at a tie;
`num / den` is the value in units of the grid. -/
def nearer (low num den : Nat) : Nat :=
  if roundQuotient num den = low then low else low + 1

/-- A decimal of exactly `places` digits that reads back, if there is one. -/
def ofPlaces? (x : Binary64) (places : Nat) : Option Scientific :=
  let e := floorLog10 x.ratio.1 x.ratio.2
  let shift : Int := (places - 1 : Nat) - e
  let num := scaled 10 x.ratio.1 shift
  let den := scaled 10 x.ratio.2 (-shift)
  let low := num / den
  match x.readsBack places low e, x.readsBack places (low + 1) e with
  | true, true => some ⟨nearer low num den, e⟩
  | true, false => some ⟨low, e⟩
  | false, true => some ⟨low + 1, e⟩
  | false, false => none

/-- Seventeen digits always read back; the search never needs more. -/
def maxPlaces : Nat := 17

/-- The fewest digits that read back, for a finite double other than zero. A
coefficient that has grown to the next power of ten is written with one digit
less. -/
def shortest (x : Binary64) : Scientific :=
  let found := (List.range maxPlaces).findSome? fun n =>
    (x.ofPlaces? (n + 1)).map fun s =>
      if s.coefficient = Nat.pow 10 (n + 1) then ⟨1, s.exponent + 1⟩ else s
  found.getD (Scientific.ofRatio maxPlaces x.ratio.1 x.ratio.2)

/-- Positional from `10 ^ -4` to below `10 ^ 16`; no point before an exponent
unless digits follow it. -/
def settingLayout : Layout := ⟨-4, 16, false⟩

/-- The shortest text of a double. -/
def shortText (x : Binary64) : Text :=
  if x.isNaN then Text.ofString "nan"
  else
    let magnitude :=
      if x.isInfinite then "inf".toList
      else if x.isZero then settingLayout.render ['0'] 0
      else
        let s := x.shortest
        settingLayout.render s.trimmed s.exponent
    Text.ofChars (if x.negative then '-' :: magnitude else magnitude)

end Binary64

end RowScope
