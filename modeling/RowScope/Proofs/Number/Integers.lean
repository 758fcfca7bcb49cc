import RowScope.Cell.Projection

/-!
# Integers of 64 Bits

An integer of 64 bits has few digits and lies far inside the doubles, so neither
limit that the readings of an integer have is ever met. For the digits this is a
bound on a power of ten. For the double it is a bound on the rank: the
significand that an integer is rounded to fits in one binade, and the binade is
that of the integer's highest bit.

## Theorems

* `decimalLength_of_bounds`: An integer of 64 bits has few digits.
* `integerText_of_bounds`: The text of an integer of 64 bits is within the
  limit.
* `floorLog2_one`: The binade of an integer is that of its highest bit.
* `roundQuotient_le`: Rounding goes up by one at most.
* `ofRatio_one_finite`: An integer below the infinite rank rounds to a finite
  double.
* `doubleOfInt_of_bounds`: An integer of 64 bits is not beyond the doubles.
-/

namespace RowScope

theorem natAbs_le_of_bounds (n : Int) (lower : minInt64 ≤ n) (upper : n ≤ maxInt64) :
    n.natAbs ≤ 0x8000000000000000 := by
  unfold minInt64 at lower
  unfold maxInt64 at upper
  omega

/-- An integer of 64 bits has few digits, far fewer than the limit for reading
    and writing integers. So neither the text of such an integer nor reading it
    back can fail. -/
theorem decimalLength_of_bounds (n : Int) (lower : minInt64 ≤ n) (upper : n ≤ maxInt64) :
    decimalLength n.natAbs ≤ digitLimit := by
  have hle := natAbs_le_of_bounds n lower upper
  have hshort : decimalLength n.natAbs ≤ 19 := by
    rw [decimalLength, Nat.length_toDigits_le_iff (by decide) (by decide)]
    omega
  exact Nat.le_trans hshort (by decide)

/-- The text of an integer of 64 bits is within the limit of digits. -/
theorem integerText_of_bounds (n : Int) (lower : minInt64 ≤ n) (upper : n ≤ maxInt64) :
    integerText n = .ok (Text.ofInt n) := by
  rw [integerText, if_pos (decimalLength_of_bounds n lower upper)]

/-- The binade of an integer is that of its highest bit. -/
theorem floorLog2_one (num : Nat) (hpos : 0 < num) : floorLog2 num 1 = Nat.log2 num := by
  have hone : Nat.log2 1 = 0 := by decide
  have hpow : 2 ^ Nat.log2 num ≤ num := Nat.log2_self_le (Nat.pos_iff_ne_zero.mp hpos)
  -- The first guess is the difference of the highest bits, and the integer is
  -- not below it.
  have hscaled : scaled 2 1 ((Nat.log2 num : Int) - (Nat.log2 1 : Nat)) ≤
      scaled 2 num (-((Nat.log2 num : Int) - (Nat.log2 1 : Nat))) := by
    rw [hone, scaled, scaled]
    rw [show ((Nat.log2 num : Int) - (0 : Nat)).toNat = Nat.log2 num by omega,
      show (-((Nat.log2 num : Int) - (0 : Nat))).toNat = 0 by omega]
    simpa only [Nat.one_mul, Nat.pow_eq, Nat.pow_zero, Nat.mul_one] using hpow
  rw [floorLog2, if_pos hscaled, hone]
  omega

/-- Rounding goes up by one at most. -/
theorem roundQuotient_le (num den : Nat) : roundQuotient num den ≤ num / den + 1 := by
  unfold roundQuotient
  simp only []
  split
  · omega
  · split
    · omega
    · omega

/-- Shifted to the scale of its binade, an integer has 53 bits, and these are
    what a double can hold. Only one of the two shifts ever happens, the other
    one is by nothing. -/
theorem shifted_lt (num : Nat) :
    scaled 2 num (-((Nat.log2 num : Int) - 52)) / scaled 2 1 ((Nat.log2 num : Int) - 52) <
      2 * Binary64.binade := by
  have hlt : num < 2 ^ (Nat.log2 num + 1) := Nat.lt_log2_self
  have hbinade : 2 * Binary64.binade = 2 ^ 53 := by decide
  rw [hbinade, scaled, scaled, Nat.one_mul, Nat.pow_eq, Nat.pow_eq]
  -- A short integer is shifted up, a long one down.
  by_cases hk : Nat.log2 num ≤ 52
  · rw [show (-((Nat.log2 num : Int) - 52)).toNat = 52 - Nat.log2 num by omega,
      show ((Nat.log2 num : Int) - 52).toNat = 0 by omega, Nat.pow_zero, Nat.div_one]
    calc num * 2 ^ (52 - Nat.log2 num)
        < 2 ^ (Nat.log2 num + 1) * 2 ^ (52 - Nat.log2 num) :=
          Nat.mul_lt_mul_of_pos_right hlt (Nat.two_pow_pos _)
      _ = 2 ^ 53 := by
          rw [← Nat.pow_add, show Nat.log2 num + 1 + (52 - Nat.log2 num) = 53 by omega]
  · rw [show (-((Nat.log2 num : Int) - 52)).toNat = 0 by omega,
      show ((Nat.log2 num : Int) - 52).toNat = Nat.log2 num - 52 by omega, Nat.pow_zero,
      Nat.mul_one]
    refine Nat.div_lt_of_lt_mul ?_
    rw [← Nat.pow_add, show Nat.log2 num - 52 + 53 = Nat.log2 num + 1 by omega]
    exact hlt

namespace Binary64

theorem ofRank_finite (negative : Bool) (rank : Nat) (h : rank < infiniteRank) :
    (ofRank negative rank).isInfinite = false := by
  have hmin : min rank infiniteRank = rank := Nat.min_eq_left (Nat.le_of_lt h)
  rw [isInfinite, ofRank, beq_eq_false_iff_ne]
  simp only [hmin]
  omega

/-- An integer whose highest bit is not too high rounds to a finite double. The
    bound is far from tight: what counts is that all integers of 64 bits are
    below it. -/
theorem ofRatio_one_finite (negative : Bool) (num : Nat) (h : Nat.log2 num ≤ 1000) :
    (ofRatio negative num 1).isInfinite = false := by
  rw [ofRatio]
  by_cases hzero : num = 0
  · rw [if_pos hzero]
    exact ofRank_finite negative 0 (by decide)
  · rw [if_neg hzero, floorLog2_one num (Nat.pos_of_ne_zero hzero)]
    simp only []
    rw [show max ((Nat.log2 num : Int) - 52) (-1074) = (Nat.log2 num : Int) - 52 by omega]
    -- The rank is at most 2022 binades, and one more to round into.
    refine ofRank_finite negative _ ?_
    have hround := roundQuotient_le (scaled 2 num (-((Nat.log2 num : Int) - 52)))
      (scaled 2 1 ((Nat.log2 num : Int) - 52))
    have hshifted := shifted_lt num
    have hplace : ((Nat.log2 num : Int) - 52 + 1074).toNat ≤ 2022 := by omega
    have hmul := Nat.mul_le_mul_right binade hplace
    have hpos : 0 < binade := by decide
    unfold infiniteRank
    omega

end Binary64

/-- An integer of 64 bits is not beyond the doubles, so that reading it as a
    real does not fail. -/
theorem doubleOfInt_of_bounds (n : Int) (lower : minInt64 ≤ n) (upper : n ≤ maxInt64) :
    doubleOfInt n = .ok (Binary64.ofInt n) := by
  have hle := natAbs_le_of_bounds n lower upper
  have hlog : Nat.log2 n.natAbs ≤ 1000 := by
    by_cases hzero : n.natAbs = 0
    · rw [hzero]
      decide
    · have hlt : Nat.log2 n.natAbs < 64 := (Nat.log2_lt hzero).mpr (by omega)
      omega
  have hfinite := Binary64.ofRatio_one_finite (n < 0) n.natAbs hlog
  simp only [doubleOfInt, Binary64.ofInt, hfinite, Bool.false_eq_true, if_false]

end RowScope
