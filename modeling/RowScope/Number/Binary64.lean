/-!
# Doubles

The 64-bit binary floating-point numbers, as exact mathematics. A double is a
sign and the *rank* of its magnitude: all magnitudes in ascending order are
numbered from zero, the infinity comes after the last finite one, and what lies
above is not a number. The rank is also what the low 63 bits of the encoding
spell, which makes the passage from and to bits trivial; and the order of
magnitudes is the order of ranks, which makes rounding a computation of ranks.

Nothing here uses machine arithmetic, so everything can be reasoned about.

Powers are written as `Nat.pow`, so that they mean the same whatever else is
imported.

## Main definitions

* `scaled`: A number times a power.
* `Binary64`: A sign and a rank.
* `Binary64.atMost`: The comparison of doubles.
* `Binary64.ofBits`, `Binary64.bits`: The encoding.
* `Binary64.significand`, `Binary64.exponent`: The magnitude is
  `significand * 2 ^ exponent`.
* `Binary64.ratio`: The magnitude as a quotient of naturals.
* `Binary64.truncate`: The magnitude without its fraction, signed.
-/

namespace RowScope

/-- The number `n * base ^ e`, where a negative power counts as one: to scale a
quotient by `base ^ e`, scale the numerator by `e` and the denominator by
`-e`. -/
def scaled (base n : Nat) (e : Int) : Nat :=
  n * Nat.pow base e.toNat

/-- A double: its sign, and the place of its magnitude among all magnitudes. -/
structure Binary64 where
  /-- The sign bit is set. -/
  negative : Bool
  /-- The place of the magnitude in ascending order, below `2 ^ 63`. -/
  rank : Fin 0x8000000000000000
deriving DecidableEq, Repr

namespace Binary64

/-- How many ranks lie between a power of two and the next one, `2 ^ 52`. -/
def binade : Nat := 0x10000000000000

/-- The rank of the infinity: the first that is not finite. -/
def infiniteRank : Nat := 2047 * binade

/-- The double of a rank; ranks beyond the infinity stop at the infinity. -/
def ofRank (negative : Bool) (rank : Nat) : Binary64 :=
  ⟨negative, ⟨min rank infiniteRank, by unfold infiniteRank binade; omega⟩⟩

/-- Zero of either sign. -/
def zero (negative : Bool) : Binary64 := ofRank negative 0

/-- Infinity of either sign. -/
def infinity (negative : Bool) : Binary64 := ofRank negative infiniteRank

/-- The value that is not a number. -/
def nan : Binary64 := ⟨false, ⟨infiniteRank + binade / 2, by decide⟩⟩

/-- Not a number. -/
def isNaN (x : Binary64) : Bool := infiniteRank < x.rank.val

/-- One of the two infinities. -/
def isInfinite (x : Binary64) : Bool := x.rank.val == infiniteRank

/-- Neither an infinity nor the value that is not a number. -/
def isFinite (x : Binary64) : Bool := x.rank.val < infiniteRank

/-- One of the two zeros. -/
def isZero (x : Binary64) : Bool := x.rank.val == 0

/-- The place of a number among all numbers: the rank, counted down from zero if
it is negative. -/
def place (x : Binary64) : Int :=
  if x.negative then -(x.rank.val : Int) else x.rank.val

/-- The comparison `x ≤ y`. What is not a number is neither below nor above
anything. -/
def atMost (x y : Binary64) : Bool :=
  !x.isNaN && !y.isNaN && x.place ≤ y.place

/-- The double that 64 bits encode. -/
def ofBits (b : UInt64) : Binary64 :=
  ⟨0x8000000000000000 ≤ b.toNat, ⟨b.toNat % 0x8000000000000000, Nat.mod_lt _ (by decide)⟩⟩

/-- The 64 bits of a double. -/
def bits (x : Binary64) : UInt64 :=
  UInt64.ofNat ((if x.negative then 0x8000000000000000 else 0) + x.rank.val)

/-- The integer that is scaled by a power of two. -/
def significand (x : Binary64) : Nat :=
  if x.rank.val < binade then x.rank.val else binade + x.rank.val % binade

/-- The power of two; the smallest one is shared by the subnormals and the first
binade. -/
def exponent (x : Binary64) : Int :=
  if x.rank.val < binade then -1074 else (x.rank.val / binade : Nat) - 1075

/-- Numerator and denominator of the magnitude of a finite double. -/
def ratio (x : Binary64) : Nat × Nat :=
  (scaled 2 x.significand x.exponent, scaled 2 1 (-x.exponent))

/-- The integer part of a finite double, toward zero. -/
def truncate (x : Binary64) : Int :=
  let whole : Int := (x.ratio.1 / x.ratio.2 : Nat)
  if x.negative then -whole else whole

end Binary64

end RowScope
