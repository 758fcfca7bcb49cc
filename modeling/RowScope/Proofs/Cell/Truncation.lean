import Mathlib.Data.Rat.Floor
import RowScope.Cell.Projection
import RowScope.Proofs.Number.Value

/-!
# Reals Read as Integers

A real is compared with the two bounds of 64 bits as doubles. If it is strictly
between them, it is read as the integer that is left when its fraction is
dropped, and otherwise as the bound. What is left is exact: the quotient that
the computation divides is the number that the double is, and dividing naturals
drops the fraction of the magnitude.

The upper bound is not a double itself, it is rounded up to the power of two
after it, so a real that is compared with it is compared with a number just
beyond the range. This does no harm: no integer lies between the bound and that
power of two. Hence a real strictly between both limits has an integer part in
the range, and the comparisons come to the same as dropping the fraction first
and moving what is left into the range. That is how the reading is understood
best, since both of these keep the order.

## Main definitions

* `truncated`: A rational number without its fraction.
* `Cell.IsTruncated`: How a real is read as an integer.

## Theorems

* `truncated_mono`: Dropping the fraction keeps the order.
* `Binary64.truncate_eq`: What is divided is the number without its fraction.
* `Binary64.ofInt_maxInt64`: The upper bound as a double is the power of two
  after it.
* `Binary64.toInt64_compared`: Reading a number compares it with both bounds.
* `Binary64.toInt64_of_finite`: This moves what is left of a finite number into
  the range.
* `Binary64.toInt64_mono`: Reading reals as integers keeps the order.
* `Cell.real_truncated`: A real is read as its number without fraction, within
  the range.
-/

namespace RowScope

/-! ### Dropping the fraction -/

/-- A rational number without its fraction: the next integer toward zero. -/
def truncated (q : ℚ) : Int := if q < 0 then ⌈q⌉ else ⌊q⌋

/-- An integer has no fraction to drop. -/
theorem truncated_intCast (n : Int) : truncated (n : ℚ) = n := by
  rw [truncated, Int.ceil_intCast, Int.floor_intCast, ite_self]

/-- Dropping the fraction keeps the order. It rounds up below zero and down
    above, and keeps the order on each side; across zero both results are on
    their own side of it. -/
theorem truncated_mono {p q : ℚ} (h : p ≤ q) : truncated p ≤ truncated q := by
  unfold truncated
  split
  · rename_i hp
    split
    · exact Int.ceil_mono h
    · -- Zero lies between them.
      rename_i hq
      exact (Int.ceil_nonpos.mpr hp.le).trans (Int.floor_nonneg.mpr (not_lt.mp hq))
  · rename_i hp
    rw [if_neg (not_lt.mpr ((not_lt.mp hp).trans h))]
    exact Int.floor_mono h

/-- The fraction of the magnitude is what is dropped, whatever the sign. -/
theorem truncated_signed (negative : Bool) (q : ℚ) (hq : 0 ≤ q) :
    truncated (signed negative q) = if negative then -⌊q⌋ else ⌊q⌋ := by
  cases negative with
  | false => exact if_neg (not_lt.mpr hq)
  | true =>
      rw [signed_true, truncated, if_pos rfl]
      split
      · exact Int.ceil_neg
      · rename_i h
        obtain rfl : q = 0 := by linarith
        rw [neg_zero, Int.floor_zero, neg_zero]

/-- A number strictly between two integers around zero does not leave them when
    its fraction is dropped, as this moves it toward zero. The upper one is not
    even reached, which is what makes a bound that is one too high harmless. -/
theorem truncated_between (lower upper : Int) (q : ℚ) (hlower : lower ≤ 0) (hupper : 0 < upper)
    (above : (lower : ℚ) < q) (below : q < upper) :
    lower ≤ truncated q ∧ truncated q ≤ upper - 1 := by
  unfold truncated
  split
  · rename_i hq
    have hnonpos : ⌈q⌉ ≤ 0 := Int.ceil_nonpos.mpr hq.le
    exact ⟨(Int.lt_ceil.mpr above).le, by omega⟩
  · rename_i hq
    have hnonneg : 0 ≤ ⌊q⌋ := Int.floor_nonneg.mpr (not_lt.mp hq)
    have hlt : ⌊q⌋ < upper := Int.floor_lt.mpr below
    omega

/-! ### Clamping -/

theorem clamp64_mono {m n : Int} (h : m ≤ n) : clamp64 m ≤ clamp64 n :=
  max_le_max_left _ (min_le_min_left _ h)

theorem clamp64_bounds (n : Int) : minInt64 ≤ clamp64 n ∧ clamp64 n ≤ maxInt64 :=
  ⟨le_max_left _ _, max_le (by decide) (min_le_left _ _)⟩

theorem clamp64_lower (n : Int) (h : n ≤ minInt64) : clamp64 n = minInt64 := by
  rw [clamp64, min_eq_right (h.trans (by decide)), max_eq_left h]

theorem clamp64_upper (n : Int) (h : maxInt64 ≤ n) : clamp64 n = maxInt64 := by
  rw [clamp64, min_eq_left h, max_eq_right (by decide)]

theorem clamp64_self (n : Int) (lower : minInt64 ≤ n) (upper : n ≤ maxInt64) : clamp64 n = n := by
  rw [clamp64, min_eq_right upper, max_eq_right lower]

namespace Binary64

/-! ### The reading of a double -/

/-- What is divided is the number without its fraction. A double is a ratio of
    naturals with a sign, and the quotient of naturals is the floor of the
    ratio. -/
theorem truncate_eq (x : Binary64) : x.truncate = truncated x.value := by
  have hfloor : ⌊x.magnitude⌋ = (x.ratio.1 / x.ratio.2 : Nat) := by
    rw [← x.ratio_magnitude]
    exact Rat.floor_natCast_div_natCast _ _
  rw [value, truncated_signed _ _ x.magnitude_nonneg, hfloor]
  rfl

/-! ### The bounds as doubles -/

/-- Both bounds have the rank of a power of two. A rank counts the doubles of a
    sign in order, so the magnitude can be told from it without any rounding. -/
theorem magnitude_limit (x : Binary64) (rank : x.rank.val = 1086 * binade) :
    x.isFinite = true ∧ x.magnitude = (2 ^ 63 : Int) := by
  have hrank : x.rank.val = 1085 * binade + binade := by
    rw [rank]
    decide
  refine ⟨?_, ?_⟩
  · rw [isFinite, rank]
    decide
  · rw [(magnitude_of_rank x 1085 binade hrank (Or.inr le_rfl) (by decide)).1]
    norm_num [binade]

/-- The lower bound is a power of two, and so it is a double itself. -/
theorem ofInt_minInt64 :
    (ofInt minInt64).isFinite = true ∧ (ofInt minInt64).value = (-2 ^ 63 : Int) := by
  rcases (ofInt minInt64).magnitude_limit (by decide +kernel) with ⟨finite, hmagnitude⟩
  have hnegative : (ofInt minInt64).negative = true := by decide
  refine ⟨finite, ?_⟩
  rw [value, hnegative, signed_true, hmagnitude, Int.cast_neg]

/-- The upper bound as a double is the power of two after it. It has more digits
    than a double can hold, and is rounded up. -/
theorem ofInt_maxInt64 :
    (ofInt maxInt64).isFinite = true ∧ (ofInt maxInt64).value = (2 ^ 63 : Int) := by
  rcases (ofInt maxInt64).magnitude_limit (by decide +kernel) with ⟨finite, hmagnitude⟩
  have hnegative : (ofInt maxInt64).negative = false := by decide
  refine ⟨finite, ?_⟩
  rw [value, hnegative, signed_false, hmagnitude]

/-! ### Comparing with the bounds -/

/-- Reading a number compares it with both bounds as doubles, and drops the
    fraction of what lies strictly between them. -/
theorem toInt64_compared (x : Binary64) (number : x.isNaN = false) : x.toInt64 =
    if x.Le (ofInt minInt64) then minInt64
    else if (ofInt maxInt64).Le x then maxInt64
    else truncated x.value := by
  simp only [toInt64, number, Bool.false_eq_true, if_false, atMost_iff, truncate_eq]

/-- The comparisons move what is left of a number into the range. At or below
    the lower bound, and at or above the power of two after the upper one, the
    integer part is out of range on the same side, or is the bound itself.
    Strictly between them it is in range, the power of two being the first
    integer beyond. -/
theorem toInt64_of_finite (x : Binary64) (finite : x.isFinite = true) :
    x.toInt64 = clamp64 (truncated x.value) := by
  rcases ofInt_minInt64 with ⟨hmin, hminValue⟩
  rcases ofInt_maxInt64 with ⟨hmax, hmaxValue⟩
  rw [x.toInt64_compared (x.isNaN_of_isFinite finite)]
  split
  · rename_i hle
    have hvalue := hle.value_le finite hmin
    rw [hminValue] at hvalue
    have htruncated := truncated_mono hvalue
    rw [truncated_intCast] at htruncated
    exact (clamp64_lower _ htruncated).symm
  · rename_i above
    split
    · rename_i hle
      have hvalue := hle.value_le hmax finite
      rw [hmaxValue] at hvalue
      have htruncated := truncated_mono hvalue
      rw [truncated_intCast] at htruncated
      exact (clamp64_upper _ ((show maxInt64 ≤ 2 ^ 63 by decide).trans htruncated)).symm
    · -- No integer lies between the upper bound and the power of two after it.
      rename_i below
      have hlower : ((-2 ^ 63 : Int) : ℚ) < x.value := by
        rw [← hminValue]
        exact not_le.mp fun h => above (.between finite hmin h)
      have hupper : x.value < (2 ^ 63 : Int) := by
        rw [← hmaxValue]
        exact not_le.mp fun h => below (.between hmax finite h)
      rcases truncated_between _ _ _ (by decide) (by decide) hlower hupper with ⟨hle, hge⟩
      exact (clamp64_self _ hle hge).symm

/-- The infinities are beyond the bounds, each on its side. No finite number is
    compared with them here, so the comparison is decided by sign alone. -/
theorem toInt64_of_infinite (x : Binary64) (infinite : x.isInfinite = true) :
    x.toInt64 = if x.negative then minInt64 else maxInt64 := by
  have hmin := isNaN_of_isFinite _ ofInt_minInt64.1
  have hmax := isNaN_of_isFinite _ ofInt_maxInt64.1
  have number := x.isNaN_of_isInfinite infinite
  rw [x.toInt64_compared number]
  cases hsign : x.negative with
  | true => rw [if_pos (.below infinite hsign hmin), if_pos rfl]
  | false =>
      -- A bound is finite, so nothing infinite above lies below it.
      have above : ¬ x.Le (ofInt minInt64) := by
        intro h
        cases h with
        | between left _ _ =>
            exact absurd (x.isInfinite_of_isFinite left) (by rw [infinite]; decide)
        | below _ negative _ => exact absurd negative (ne_true_of_eq_false hsign)
        | above _ limit _ =>
            exact absurd (isInfinite_of_isFinite _ ofInt_minInt64.1) (by rw [limit]; decide)
      rw [if_neg above, if_pos (.above hmax infinite hsign), if_neg Bool.false_ne_true]

/-- Whatever a double is, its reading has 64 bits; what is not a number is read
    as zero. -/
theorem toInt64_bounds (x : Binary64) : minInt64 ≤ x.toInt64 ∧ x.toInt64 ≤ maxInt64 := by
  cases hnumber : x.isNaN with
  | true =>
      rw [toInt64, if_pos hnumber]
      decide
  | false =>
      rcases x.finite_or_infinite hnumber with ⟨finite, -⟩ | ⟨-, infinite⟩
      · rw [x.toInt64_of_finite finite]
        exact clamp64_bounds _
      · rw [x.toInt64_of_infinite infinite]
        split
        · decide
        · decide

/-- Reading reals as integers keeps the order. For finite numbers this is
    because dropping the fraction and clamping both do; an infinity is read as
    the bound that nothing gets past. -/
theorem toInt64_mono {x y : Binary64} (h : x.Le y) : x.toInt64 ≤ y.toInt64 := by
  cases h with
  | between left right le =>
      rw [x.toInt64_of_finite left, y.toInt64_of_finite right]
      exact clamp64_mono (truncated_mono le)
  | below infinite negative number =>
      rw [x.toInt64_of_infinite infinite, if_pos negative]
      exact y.toInt64_bounds.1
  | above number infinite positive =>
      rw [y.toInt64_of_infinite infinite, positive]
      exact x.toInt64_bounds.2

end Binary64

namespace Cell

/-- How a real is read as an integer. -/
structure IsTruncated (x : Binary64) (n : Int) : Prop where
  read : (real x).int64 = .ok n
  /-- The exact number without its fraction, within the range. -/
  finite : x.isFinite = true → n = max (-2 ^ 63) (min (2 ^ 63 - 1) (truncated x.value))
  infinite : x.isInfinite = true → n = if x.negative then -2 ^ 63 else 2 ^ 63 - 1
  lower : -2 ^ 63 ≤ n
  upper : n ≤ 2 ^ 63 - 1
  mono : ∀ (y : Binary64) (m : Int), x.Le y → (real y).int64 = .ok m → n ≤ m
  /-- The same by comparing doubles, with the bounds as doubles. -/
  compared : n =
    if x.Le (Binary64.ofInt (-2 ^ 63)) then -2 ^ 63
    else if (Binary64.ofInt (2 ^ 63 - 1)).Le x then 2 ^ 63 - 1
    else truncated x.value

/-- A real is read as its number without fraction, within the range of 64 bits.
    The exact number is meant, not one that was rounded again, and the route by
    comparing doubles is a part of the statement, with the upper bound where
    rounding has put it. For that route `x` must be a number; a NaN is neither
    below nor above anything. -/
theorem real_truncated (x : Binary64) (number : x.isNaN = false) : ∃ n, IsTruncated x n := by
  have hbounds := x.toInt64_bounds
  refine ⟨x.toInt64, rfl, x.toInt64_of_finite, x.toInt64_of_infinite, hbounds.1, hbounds.2, ?_,
    x.toInt64_compared number⟩
  intro y m hle hread
  cases hread
  exact Binary64.toInt64_mono hle

/-- The power of two after the range is read as the upper bound. -/
theorem real_truncated_limit :
    (Binary64.ofInt (2 ^ 63)).isNaN = false ∧ (∃ n, IsTruncated (Binary64.ofInt (2 ^ 63)) n) ∧
      (Binary64.ofInt (2 ^ 63)).toInt64 = 2 ^ 63 - 1 := by
  have number : (Binary64.ofInt (2 ^ 63)).isNaN = false := by decide
  exact ⟨number, real_truncated (Binary64.ofInt (2 ^ 63)) number, by decide +kernel⟩

end Cell

end RowScope
