import Mathlib.Algebra.Order.Field.Power
import Mathlib.Algebra.Order.Field.Rat
import Mathlib.Tactic.Linarith
import Mathlib.Tactic.NormNum
import Mathlib.Tactic.Positivity
import Mathlib.Tactic.Ring
import RowScope.Number.Rounding

/-!
# Rounding Is to the Nearest

The double that a quotient or a decimal is rounded to is the nearest one. It is
nearest among all finite doubles, the even one of two that are equally near, and
infinite only from the middle between the largest finite double and the next
power of two on.

The rounding is a computation of ranks: with the spacing of doubles at the size
of the quotient as unit, the quotient is rounded to a whole number, and the
ranks below it are added. So two things are shown. A rank that is computed in
this way belongs to the double that is so many units, even if the rounding went
up to the next power of two. And no other double is nearer, since a double
either is a whole number of units itself, or is smaller than all doubles that
have this unit, and the smallest of these is not above the quotient.

## Main definitions

* `Binary64.magnitude`: The rational number that a finite double is, without its
  sign.
* `Binary64.overflow`: The least rational number that is rounded to infinity.
* `Binary64.IsNearest`: A double is the one that a rational number is rounded
  to.

## Theorems

* `floorLog2_spec`: The exponent of the leading binary digit.
* `roundQuotient_nearest`: No integer is nearer.
* `magnitude_of_rank`: The double of a rank that is made up of binades and
  units.
* `ofRatio_nearest`: A quotient is rounded to the nearest double.
* `ofDecimal_nearest`: So is a decimal.
* `IsNearest.unique`: There is just one nearest double.
-/

namespace RowScope

/-! ### Quotients -/

/-- A quotient is scaled by a power if its numerator or its denominator is. -/
theorem scaled_div (b n d : Nat) (e : Int) (hb : 0 < b) :
    (scaled b n (-e) : ℚ) / scaled b d e = n / d * (b : ℚ) ^ (-e) := by
  have hne : (b : ℚ) ≠ 0 := by positivity
  -- One of the two is left as it is.
  rcases Int.eq_nat_or_neg e with ⟨k, rfl | rfl⟩
  · rw [scaled, scaled, Int.toNat_natCast, Int.toNat_neg_natCast, Nat.pow_eq, Nat.pow_eq, pow_zero,
      mul_one, Nat.cast_mul, Nat.cast_pow, zpow_neg, zpow_natCast, div_mul_eq_div_div,
      div_eq_mul_inv]
  · rw [scaled, scaled, neg_neg, Int.toNat_natCast, Int.toNat_neg_natCast, Nat.pow_eq, Nat.pow_eq,
      pow_zero, mul_one, Nat.cast_mul, Nat.cast_pow, zpow_natCast, mul_div_right_comm]

theorem scaled_pos (b n : Nat) (e : Int) (hb : 0 < b) (hn : 0 < n) : 0 < scaled b n e :=
  Nat.mul_pos hn (Nat.pow_pos hb)

/-- The exponent of the leading binary digit of a number. -/
theorem log2_spec (n : Nat) (hn : 0 < n) :
    (2 : ℚ) ^ Nat.log2 n ≤ n ∧ (n : ℚ) < 2 ^ (Nat.log2 n + 1) := by
  constructor
  · exact_mod_cast Nat.log2_self_le (Nat.pos_iff_ne_zero.mp hn)
  · exact_mod_cast (Nat.lt_log2_self : n < 2 ^ (Nat.log2 n + 1))

/-- The exponent of the leading binary digit of a quotient. The difference
    between the leading digits of the two numbers is this exponent or one more
    than it, since the digits behind them change the quotient by less than a
    factor of two. One comparison of scaled naturals decides which it is. -/
theorem floorLog2_spec (num den : Nat) (hnum : 0 < num) (hden : 0 < den) :
    (2 : ℚ) ^ floorLog2 num den ≤ num / den ∧
      (num : ℚ) / den < 2 ^ (floorLog2 num den + 1) := by
  have hden' : (0 : ℚ) < den := by exact_mod_cast hden
  rcases log2_spec num hnum with ⟨hnumlow, hnumhigh⟩
  rcases log2_spec den hden with ⟨hdenlow, hdenhigh⟩
  -- The difference of the highest bits is right or one too many.
  have hbelow : (2 : ℚ) ^ ((Nat.log2 num : Int) - Nat.log2 den - 1) ≤ num / den := by
    rw [le_div_iff₀ hden']
    calc (2 : ℚ) ^ ((Nat.log2 num : Int) - Nat.log2 den - 1) * den
        ≤ 2 ^ ((Nat.log2 num : Int) - Nat.log2 den - 1) * 2 ^ (Nat.log2 den + 1) :=
          mul_le_mul_of_nonneg_left hdenhigh.le (by positivity)
      _ = 2 ^ Nat.log2 num := by
          rw [← zpow_natCast, ← zpow_natCast, ← zpow_add₀ two_ne_zero]
          congr 1
          omega
      _ ≤ num := hnumlow
  have habove : (num : ℚ) / den < 2 ^ ((Nat.log2 num : Int) - Nat.log2 den + 1) := by
    rw [div_lt_iff₀ hden']
    calc (num : ℚ) < 2 ^ (Nat.log2 num + 1) := hnumhigh
      _ = 2 ^ ((Nat.log2 num : Int) - Nat.log2 den + 1) * 2 ^ Nat.log2 den := by
          rw [← zpow_natCast, ← zpow_natCast, ← zpow_add₀ two_ne_zero]
          congr 1
          omega
      _ ≤ 2 ^ ((Nat.log2 num : Int) - Nat.log2 den + 1) * den :=
          mul_le_mul_of_nonneg_left hdenlow (by positivity)
  -- Which of the two it is, the comparison of the scaled numbers tells.
  have hcompare : scaled 2 den ((Nat.log2 num : Int) - Nat.log2 den) ≤
      scaled 2 num (-((Nat.log2 num : Int) - Nat.log2 den)) ↔
        (2 : ℚ) ^ ((Nat.log2 num : Int) - Nat.log2 den) ≤ num / den := by
    have hpos : (0 : ℚ) < scaled 2 den ((Nat.log2 num : Int) - Nat.log2 den) := by
      exact_mod_cast scaled_pos 2 den _ Nat.two_pos hden
    rw [← @Nat.cast_le ℚ, ← one_le_div hpos, scaled_div 2 num den _ Nat.two_pos, zpow_neg,
      Nat.cast_ofNat, ← div_eq_mul_inv, one_le_div (by positivity)]
  unfold floorLog2
  simp only []
  by_cases h : scaled 2 den ((Nat.log2 num : Int) - Nat.log2 den) ≤
      scaled 2 num (-((Nat.log2 num : Int) - Nat.log2 den))
  · rw [if_pos h]
    exact ⟨hcompare.mp h, habove⟩
  · rw [if_neg h]
    rw [hcompare, not_le] at h
    rw [sub_add_cancel]
    exact ⟨hbelow, h⟩

/-- The distances of integers from a quotient, multiplied by its denominator.
    All of rounding is here, and it is about integers only: the integer that is
    `j` above the floor is away from the quotient by `j * d - r`, where the
    remainder `r` is not negative and less than `d`. -/
theorem roundQuotient_natAbs (n d : Nat) (hd : 0 < d) (k : Int) :
    ((roundQuotient n d : Int) * d - n).natAbs ≤ (k * d - n).natAbs ∧
      (k ≠ roundQuotient n d →
        ((roundQuotient n d : Int) * d - n).natAbs = (k * d - n).natAbs →
          roundQuotient n d % 2 = 0) := by
  have hdiv : (n : Int) = d * (n / d : Nat) + (n % d : Nat) := by
    exact_mod_cast (Nat.div_add_mod n d).symm
  have hmod := Nat.mod_lt n hd
  unfold roundQuotient
  simp only []
  generalize n / d = q at hdiv ⊢
  generalize n % d = r at hdiv hmod ⊢
  -- The integer is so many more than the quotient without its remainder.
  obtain ⟨j, rfl⟩ : ∃ j : Int, k = q + j := ⟨k - q, by omega⟩
  have hk : ((q : Int) + j) * d - n = j * d - r := by
    rw [hdiv]
    ring
  have hdown : (q : Int) * d - n = -r := by
    rw [hdiv]
    ring
  have hup : ((q + 1 : Nat) : Int) * d - n = d - r := by
    rw [hdiv]
    push_cast
    ring
  -- The product with the denominator is all that is not linear, so its bounds
  -- come first.
  have hbelow : j ≤ -1 → j * d ≤ -d := by
    intro hj
    nlinarith
  have hnone : j = 0 → j * d = 0 := by
    intro hj
    rw [hj, zero_mul]
  have habove : 1 ≤ j → (d : Int) ≤ j * d := by
    intro hj
    nlinarith
  have htwo : 2 ≤ j → 2 * (d : Int) ≤ j * d := by
    intro hj
    nlinarith
  rw [hk]
  generalize j * (d : Int) = jd at *
  by_cases hlow : 2 * r < d
  · rw [if_pos hlow, hdown]
    omega
  · rw [if_neg hlow]
    by_cases hhigh : d < 2 * r
    · rw [if_pos hhigh, hup]
      omega
    · -- It is in the middle, and the even one of its two neighbours is taken.
      rw [if_neg hhigh]
      rcases Nat.mod_two_eq_zero_or_one q with heven | hodd
      · rw [heven, add_zero, hdown]
        omega
      · rw [hodd, hup]
        omega

/-- No integer is nearer to a quotient than the one that it is rounded to, and
    if another one is as near then it is even. This is the same with the
    denominator divided out, which is positive and changes no comparison. -/
theorem roundQuotient_nearest (n d : Nat) (hd : 0 < d) (k : Int) :
    |(roundQuotient n d : ℚ) - n / d| ≤ |(k : ℚ) - n / d| ∧
      (k ≠ roundQuotient n d → |(roundQuotient n d : ℚ) - n / d| = |(k : ℚ) - n / d| →
        roundQuotient n d % 2 = 0) := by
  have hd' : (0 : ℚ) < d := by exact_mod_cast hd
  have hdistance : ∀ i : Int, |(i : ℚ) - n / d| = ((i * d - n : Int).natAbs : ℚ) / d := by
    intro i
    rw [Nat.cast_natAbs, Int.cast_abs, eq_div_iff hd'.ne', ← abs_of_pos hd', ← abs_mul,
      abs_of_pos hd', sub_mul, div_mul_cancel₀ _ hd'.ne']
    push_cast
    rfl
  have hself := hdistance (roundQuotient n d)
  rw [Int.cast_natCast] at hself
  rw [hself, hdistance k, div_le_div_iff_of_pos_right hd', div_left_inj' hd'.ne', Nat.cast_le,
    Nat.cast_inj]
  exact roundQuotient_natAbs n d hd k

namespace Binary64

/-! ### Magnitudes -/

/-- The rational number that a finite double is, without its sign. -/
def magnitude (x : Binary64) : ℚ := x.significand * 2 ^ x.exponent

/-- The least rational number that is rounded to infinity, in the middle between
    the largest finite double and the next power of two. -/
def overflow : ℚ := 2 ^ 1024 - 2 ^ 970

/-- A double is the one that a rational number of a sign is rounded to. -/
structure IsNearest (x : Binary64) (negative : Bool) (q : ℚ) : Prop where
  sign : x.negative = negative
  number : x.isNaN = false
  infinite : x.isInfinite = true ↔ overflow ≤ q
  nearest : x.isFinite = true → ∀ y : Binary64, y.isFinite = true →
    |x.magnitude - q| ≤ |y.magnitude - q|
  even : x.isFinite = true → ∀ y : Binary64, y.isFinite = true → y.magnitude ≠ x.magnitude →
    |x.magnitude - q| = |y.magnitude - q| → x.significand % 2 = 0

/-- The same in units of half the spacing of the largest finite doubles. -/
theorem overflow_eq : overflow = (2 ^ 54 - 1) * 2 ^ (970 : Int) := by
  rw [overflow, show (970 : Int) = (970 : Nat) from rfl, zpow_natCast, sub_mul, one_mul, ← pow_add]

theorem binade_pos : 0 < binade := by decide

theorem significand_lt (x : Binary64) : x.significand < 2 * binade := by
  unfold significand
  have hmod := Nat.mod_lt x.rank.val binade_pos
  split
  · omega
  · omega

theorem exponent_ge (x : Binary64) : -1074 ≤ x.exponent := by
  unfold exponent
  split
  · exact le_refl _
  · rename_i h
    have hdiv : 0 < x.rank.val / binade := Nat.div_pos (Nat.le_of_not_lt h) binade_pos
    omega

theorem ofRank_rank (negative : Bool) (rank : Nat) (h : rank < infiniteRank) :
    (ofRank negative rank).rank.val = rank :=
  Nat.min_eq_left (Nat.le_of_lt h)

theorem ofRank_infinite (negative : Bool) (rank : Nat) :
    (ofRank negative rank).isInfinite = true ↔ infiniteRank ≤ rank := by
  rw [isInfinite, beq_iff_eq]
  exact min_eq_right_iff

theorem ofRank_isNaN (negative : Bool) (rank : Nat) : (ofRank negative rank).isNaN = false := by
  rw [isNaN, decide_eq_false_iff_not, Nat.not_lt]
  exact Nat.min_le_right rank infiniteRank

theorem ofRank_isFinite (negative : Bool) (rank : Nat) :
    (ofRank negative rank).isFinite = true ↔ rank < infiniteRank := by
  rw [isFinite, decide_eq_true_eq]
  exact min_lt_iff.trans ⟨fun h => h.resolve_right (Nat.lt_irrefl _), Or.inl⟩

/-- A rank that is made up of binades and a number of units belongs to the
    double that is so many units. The number of units may be that of the next
    power of two, as it is when a significand was rounded up: then the double is
    the first one with the next unit, which is the same number. If these are an
    even number of units then the double is even. -/
theorem magnitude_of_rank (x : Binary64) (k m : Nat) (rank : x.rank.val = k * binade + m)
    (normal : k = 0 ∨ binade ≤ m) (le : m ≤ 2 * binade) :
    x.magnitude = m * 2 ^ ((k : Int) - 1074) ∧ (m % 2 = 0 → x.significand % 2 = 0) ∧
      (m < 2 * binade → x.significand = m) := by
  unfold magnitude significand exponent
  rw [rank]
  by_cases hsmall : m < binade
  · -- A subnormal, or zero.
    obtain rfl : k = 0 := by omega
    rw [Nat.zero_mul, Nat.zero_add, if_pos hsmall, if_pos hsmall]
    exact ⟨by norm_num, fun h => h, fun _ => rfl⟩
  · have hnot : ¬ k * binade + m < binade := by
      have := Nat.le_add_left m (k * binade)
      omega
    rw [if_neg hnot, if_neg hnot]
    by_cases hnext : m = 2 * binade
    · -- The first double of the binade after the next.
      subst hnext
      have hdiv : (k * binade + 2 * binade) / binade = k + 2 := by
        rw [← Nat.add_mul, Nat.mul_div_cancel _ binade_pos]
      have hmod : (k * binade + 2 * binade) % binade = 0 := by
        rw [← Nat.add_mul, Nat.mul_mod_left]
      rw [hdiv, hmod]
      refine ⟨?_, fun _ => by decide, fun h => absurd h (Nat.lt_irrefl _)⟩
      rw [show ((k + 2 : Nat) : Int) - 1075 = (k : Int) - 1074 + 1 by omega,
        zpow_add_one₀ two_ne_zero]
      push_cast
      ring
    · -- A normal double: one binade of the units is the leading digit.
      have hsplit : k * binade + m = (m - binade) + (k + 1) * binade := by
        rw [Nat.add_mul]
        omega
      have hdiv : (k * binade + m) / binade = k + 1 := by
        rw [hsplit, Nat.add_mul_div_right _ _ binade_pos, Nat.div_eq_of_lt (by omega), Nat.zero_add]
      have hmod : (k * binade + m) % binade = m - binade := by
        rw [hsplit, Nat.add_mul_mod_self_right, Nat.mod_eq_of_lt (by omega)]
      rw [hdiv, hmod]
      have hsum : binade + (m - binade) = m := by omega
      rw [hsum, show ((k + 1 : Nat) : Int) - 1075 = (k : Int) - 1074 by omega]
      exact ⟨rfl, fun h => h, fun _ => rfl⟩

/-- Every rank is made up in this way. For a subnormal all units count, and for
    the others one binade of units is the leading digit, which does not depend
    on the binade. -/
theorem rank_units (x : Binary64) : ∃ k m : Nat, x.rank.val = k * binade + m ∧
    (k = 0 ∨ binade ≤ m) ∧ m < 2 * binade := by
  by_cases hsmall : x.rank.val < binade
  · exact ⟨0, x.rank.val, by omega, Or.inl rfl, by omega⟩
  · have hdiv : 0 < x.rank.val / binade := Nat.div_pos (Nat.le_of_not_lt hsmall) binade_pos
    have hmod := Nat.mod_lt x.rank.val binade_pos
    refine ⟨x.rank.val / binade - 1, binade + x.rank.val % binade, ?_,
      Or.inr (Nat.le_add_right _ _), by omega⟩
    have hsplit := Nat.div_add_mod' x.rank.val binade
    have hone := Nat.sub_one_mul (x.rank.val / binade) binade
    have hle := Nat.mul_le_mul_right binade hdiv
    omega

/-- A double whose unit is not smaller is a whole number of units, since units
    are powers of two. -/
theorem magnitude_units (x : Binary64) (e : Int) (h : e ≤ x.exponent) :
    ∃ k : Int, x.magnitude = k * 2 ^ e := by
  refine ⟨x.significand * 2 ^ (x.exponent - e).toNat, ?_⟩
  rw [magnitude]
  push_cast
  rw [mul_assoc, ← zpow_natCast, ← zpow_add₀ two_ne_zero]
  congr 2
  omega

/-- A double whose unit is smaller is below the first normal double with this
    unit. Its significand is less than two binades, and its unit is at most half
    as large. -/
theorem magnitude_lt (x : Binary64) (e : Int) (h : x.exponent < e) :
    x.magnitude < binade * 2 ^ e := by
  have hsignificand : (x.significand : ℚ) < 2 * binade := by
    exact_mod_cast x.significand_lt
  calc x.magnitude < 2 * binade * 2 ^ x.exponent :=
        mul_lt_mul_of_pos_right hsignificand (by positivity)
    _ ≤ 2 * binade * 2 ^ (e - 1) :=
        mul_le_mul_of_nonneg_left (zpow_le_zpow_right₀ one_le_two (by omega)) (by positivity)
    _ = binade * 2 ^ e := by
        rw [zpow_sub_one₀ two_ne_zero]
        ring

/-! ### Rounding to units -/

section

variable (negative : Bool) (k m : Nat) (r : ℚ)
  (nearest : ∀ j : Int, |(m : ℚ) - r| ≤ |(j : ℚ) - r| ∧
    (j ≠ m → |(m : ℚ) - r| = |(j : ℚ) - r| → m % 2 = 0))
  (normal : k = 0 ∨ (binade : ℚ) ≤ r) (lt : r < 2 * binade)

include nearest lt

/-- What is less than two binades is not rounded to more. -/
theorem units_le : m ≤ 2 * binade := by
  by_contra hc
  have hm : (2 * binade : ℚ) + 1 ≤ m := by exact_mod_cast Nat.lt_of_not_le hc
  have h := (nearest (2 * binade : Nat)).1
  rw [abs_of_nonneg (by linarith), abs_of_nonneg (by push_cast; linarith)] at h
  push_cast at h
  linarith

omit lt in
/-- What is not less than a binade is not rounded to less. -/
theorem binade_le (hr : (binade : ℚ) ≤ r) : binade ≤ m := by
  by_contra hc
  have hm : (m : ℚ) + 1 ≤ binade := by exact_mod_cast Nat.lt_of_not_le hc
  have h := (nearest (binade : Nat)).1
  rw [abs_of_nonpos (by linarith), abs_of_nonpos (by push_cast; linarith)] at h
  push_cast at h
  linarith

/-- In the last binade, what is rounded up to the next one is what is not below
    the middle. The middle itself is rounded up, because the last significand of
    a binade is odd. -/
theorem twoBinades_le_iff : 2 * binade ≤ m ↔ (2 * binade : ℚ) - 1 / 2 ≤ r := by
  constructor
  · intro hm
    have hm' : (m : ℚ) = 2 * binade := by
      exact_mod_cast Nat.le_antisymm (units_le m r nearest lt) hm
    have h := (nearest (2 * binade - 1)).1
    push_cast at h
    rw [hm', abs_of_nonneg (by linarith)] at h
    -- Below the middle the lower neighbour is nearer.
    by_contra hc
    rcases le_total ((2 * binade : ℚ) - 1) r with hle | hle
    · rw [abs_of_nonpos (by linarith)] at h
      linarith
    · rw [abs_of_nonneg (by linarith)] at h
      linarith
  · intro hr
    by_contra hc
    have hm : (m : ℚ) + 1 ≤ 2 * binade := by exact_mod_cast Nat.lt_of_not_le hc
    rcases nearest (2 * binade : Nat) with ⟨hle, htie⟩
    push_cast at hle htie
    rw [abs_of_nonpos (by linarith), abs_of_nonneg (by linarith)] at hle htie
    -- It is the middle, so the even one is the upper neighbour.
    have hm' : (m : ℚ) = 2 * binade - 1 := by linarith
    have hodd : m = 2 * binade - 1 := by
      have hnat : m + 1 = 2 * binade := by
        exact_mod_cast (by linarith : (m : ℚ) + 1 = 2 * binade)
      omega
    have heven := htie (by omega) (by linarith)
    rw [hodd] at heven
    exact absurd heven (by decide)

include normal

/-- The infinities begin where the middle behind the last finite double is. This
    only has to be computed for the last binade of finite doubles: with a
    smaller unit everything is below the middle, and with a larger one
    everything is above it. -/
theorem overflow_iff : infiniteRank ≤ k * binade + m ↔ overflow ≤ r * 2 ^ ((k : Int) - 1074) := by
  have hle := units_le m r nearest lt
  have hbinade : (binade : ℚ) = 2 ^ 52 := by norm_num [binade]
  have hunit : (0 : ℚ) < 2 ^ ((k : Int) - 1074) := by positivity
  rcases Nat.lt_trichotomy k 2045 with hk | hk | hk
  · -- There is at least one more binade.
    have hrank : ¬ infiniteRank ≤ k * binade + m := by
      have hmul := Nat.mul_le_mul_right binade (Nat.le_of_lt_succ hk)
      have hpos := binade_pos
      unfold infiniteRank
      omega
    have hq : r * 2 ^ ((k : Int) - 1074) < overflow := by
      calc r * 2 ^ ((k : Int) - 1074) < 2 * binade * 2 ^ ((k : Int) - 1074) :=
            mul_lt_mul_of_pos_right lt hunit
        _ ≤ 2 * binade * 2 ^ (970 : Int) :=
            mul_le_mul_of_nonneg_left (zpow_le_zpow_right₀ one_le_two (by omega)) (by positivity)
        _ ≤ overflow := by
            rw [overflow_eq, hbinade]
            exact mul_le_mul_of_nonneg_right (by norm_num) (by positivity)
    exact ⟨fun h => absurd h hrank, fun h => absurd h (not_le_of_gt hq)⟩
  · -- The last binade of finite doubles.
    have hrank : infiniteRank ≤ k * binade + m ↔ 2 * binade ≤ m := by
      rw [hk]
      unfold infiniteRank
      omega
    have hhalf : r * 2 ^ ((k : Int) - 1074) = 2 * r * 2 ^ (970 : Int) := by
      rw [hk, show ((2045 : Nat) : Int) - 1074 = 970 + 1 by rfl, zpow_add_one₀ two_ne_zero]
      ring
    rw [hrank, twoBinades_le_iff m r nearest lt, hhalf, overflow_eq, hbinade,
      mul_le_mul_iff_of_pos_right (by positivity)]
    constructor
    · intro h
      linarith
    · intro h
      linarith
  · -- There is no finite double with such a unit, and all of them are below the
    -- middle.
    have hr : (binade : ℚ) ≤ r := normal.resolve_left (by omega)
    have hm := binade_le m r nearest hr
    have hrank : infiniteRank ≤ k * binade + m := by
      have hmul := Nat.mul_le_mul_right binade (show 2046 ≤ k by omega)
      unfold infiniteRank
      omega
    have hq : overflow ≤ r * 2 ^ ((k : Int) - 1074) := by
      calc overflow ≤ 4 * binade * 2 ^ (970 : Int) := by
            rw [overflow_eq, hbinade]
            exact mul_le_mul_of_nonneg_right (by norm_num) (by positivity)
        _ = binade * 2 ^ (972 : Int) := by
            rw [show (972 : Int) = 970 + 1 + 1 by rfl, zpow_add_one₀ two_ne_zero,
              zpow_add_one₀ two_ne_zero]
            ring
        _ ≤ binade * 2 ^ ((k : Int) - 1074) :=
            mul_le_mul_of_nonneg_left (zpow_le_zpow_right₀ one_le_two (by omega)) (by positivity)
        _ ≤ r * 2 ^ ((k : Int) - 1074) := mul_le_mul_of_nonneg_right hr hunit.le
    exact ⟨fun _ => hq, fun _ => hrank⟩

/-- What is rounded to a whole number of units is rounded to the nearest double.
    Another double is a whole number of the same units, and then it is one of
    those that were compared already, or it has a smaller unit. In that case it
    is below the first double with this unit, which is below the number that is
    rounded. -/
theorem ofRank_nearest :
    (ofRank negative (k * binade + m)).IsNearest negative (r * 2 ^ ((k : Int) - 1074)) := by
  have hle := units_le m r nearest lt
  have hm : k = 0 ∨ binade ≤ m := normal.imp id (binade_le m r nearest)
  have hunit : (0 : ℚ) < 2 ^ ((k : Int) - 1074) := by positivity
  -- Distances are compared in units.
  have hdistance : ∀ j : ℚ, |j * 2 ^ ((k : Int) - 1074) - r * 2 ^ ((k : Int) - 1074)| =
      |j - r| * 2 ^ ((k : Int) - 1074) := by
    intro j
    rw [← sub_mul, abs_mul, abs_of_pos hunit]
  -- A double with a smaller unit is farther away than the first one with this
  -- unit.
  have hbelow : ∀ y : Binary64, y.exponent < (k : Int) - 1074 →
      |(m : ℚ) - r| * 2 ^ ((k : Int) - 1074) < |y.magnitude - r * 2 ^ ((k : Int) - 1074)| := by
    intro y hy
    have hexponent := y.exponent_ge
    have hr : (binade : ℚ) ≤ r := normal.resolve_left (by omega)
    have hlt := y.magnitude_lt _ hy
    have hmul := mul_le_mul_of_nonneg_right hr hunit.le
    have hfirst := (nearest (binade : Nat)).1
    push_cast at hfirst
    rw [abs_of_nonpos (show (binade : ℚ) - r ≤ 0 by linarith)] at hfirst
    have hscaled := mul_le_mul_of_nonneg_right hfirst hunit.le
    rw [abs_of_neg (show y.magnitude - r * 2 ^ ((k : Int) - 1074) < 0 by linarith)]
    linarith
  refine ⟨rfl, ofRank_isNaN negative _, ?_, ?_, ?_⟩
  · rw [ofRank_infinite]
    exact overflow_iff k m r nearest normal lt
  · intro hfinite y _
    have hrank := ofRank_rank negative _ ((ofRank_isFinite negative _).mp hfinite)
    -- Doubles with this unit or a larger one are integers of units.
    rw [(magnitude_of_rank _ k m hrank hm hle).1, hdistance]
    by_cases hy : (k : Int) - 1074 ≤ y.exponent
    · rcases y.magnitude_units _ hy with ⟨j, hj⟩
      rw [hj, hdistance]
      exact mul_le_mul_of_nonneg_right (nearest j).1 hunit.le
    · exact (hbelow y (lt_of_not_ge hy)).le
  · intro hfinite y _ hne htie
    have hrank := ofRank_rank negative _ ((ofRank_isFinite negative _).mp hfinite)
    rcases magnitude_of_rank _ k m hrank hm hle with ⟨hmagnitude, heven, -⟩
    rw [hmagnitude] at hne htie
    rw [hdistance] at htie
    by_cases hy : (k : Int) - 1074 ≤ y.exponent
    · rcases y.magnitude_units _ hy with ⟨j, hj⟩
      rw [hj, hdistance] at htie
      refine heven ((nearest j).2 ?_ (mul_right_cancel₀ hunit.ne' htie))
      intro hjm
      rw [hj, hjm, Int.cast_natCast] at hne
      exact hne rfl
    · exact absurd htie (hbelow y (lt_of_not_ge hy)).ne

end

/-! ### Rounding quotients and decimals -/

/-- What is less than half the smallest double is rounded to zero, which is the
    double of no unit at all. -/
theorem zero_nearest (negative : Bool) (q : ℚ) (hq : 0 ≤ q) (small : 2 * q < 2 ^ (-1074 : Int)) :
    (zero negative).IsNearest negative q := by
  have hsmall : 2 * (q / 2 ^ (-1074 : Int)) < 1 := by
    rw [← mul_div_assoc, div_lt_one (by positivity)]
    exact small
  have hpos : 0 ≤ q / 2 ^ (-1074 : Int) := by positivity
  -- It is rounded to no unit at all.
  have hnearest := ofRank_nearest negative 0 0 (q / 2 ^ (-1074 : Int)) (by
    intro j
    refine ⟨?_, fun _ _ => rfl⟩
    rw [Nat.cast_zero, zero_sub, abs_neg, abs_of_nonneg hpos]
    rcases lt_or_ge 0 j with hj | hj
    · have hj' : (1 : ℚ) ≤ j := by exact_mod_cast hj
      rw [abs_of_nonneg (by linarith)]
      linarith
    · have hj' : (j : ℚ) ≤ 0 := by exact_mod_cast hj
      rw [abs_of_nonpos (by linarith)]
      linarith) (Or.inl rfl) (by
    have hbinade : (1 : ℚ) ≤ binade := by exact_mod_cast binade_pos
    linarith)
  rw [Nat.cast_zero, zero_sub, div_mul_cancel₀ _ (by positivity)] at hnearest
  exact hnearest

/-- What is above all doubles is rounded to the infinity. -/
theorem infinity_nearest (negative : Bool) (q : ℚ) (large : overflow ≤ q) :
    (infinity negative).IsNearest negative q := by
  have hinfinite := (ofRank_infinite negative infiniteRank).mpr (le_refl _)
  have hnot : ¬ (infinity negative).isFinite = true := by
    rw [infinity, ofRank_isFinite]
    exact lt_irrefl _
  exact ⟨rfl, ofRank_isNaN negative _, ⟨fun _ => large, fun _ => hinfinite⟩,
    fun h => absurd h hnot, fun h => absurd h hnot⟩

/-- A quotient is rounded to the nearest double. The unit is chosen by the
    leading binary digit, so that the quotient has 53 digits before the point,
    or fewer if there is no unit so small. These are the two conditions under
    which rounding to units is rounding to doubles. -/
theorem ofRatio_nearest (negative : Bool) (num den : Nat) (hden : 0 < den) :
    (ofRatio negative num den).IsNearest negative (num / den) := by
  unfold ofRatio
  by_cases hnum : num = 0
  · rw [if_pos hnum, hnum, Nat.cast_zero, zero_div]
    exact zero_nearest negative 0 (le_refl _) (by rw [mul_zero]; positivity)
  · rw [if_neg hnum]
    simp only []
    rcases floorLog2_spec num den (Nat.pos_of_ne_zero hnum) hden with ⟨hlow, hhigh⟩
    generalize floorLog2 num den = f at hlow hhigh ⊢
    generalize he : max (f - 52) (-1074) = e
    -- The unit is the spacing of doubles at the size of the quotient.
    obtain ⟨k, hk⟩ : ∃ k : Nat, e = (k : Int) - 1074 := ⟨(e + 1074).toNat, by omega⟩
    have hunit : (0 : ℚ) < 2 ^ e := by positivity
    have hbinade : (binade : ℚ) = 2 ^ (52 : Int) := by norm_num [binade]
    have hunits : (scaled 2 num (-e) : ℚ) / scaled 2 den e = num / den / 2 ^ e := by
      rw [scaled_div 2 num den e Nat.two_pos, zpow_neg, Nat.cast_ofNat, ← div_eq_mul_inv]
    have hplace : (e + 1074).toNat = k := by omega
    rw [hplace]
    have hnearest := ofRank_nearest negative k
      (roundQuotient (scaled 2 num (-e)) (scaled 2 den e)) (num / den / 2 ^ e)
      (by
        intro j
        rw [← hunits]
        -- The rounded quotient is the nearest number of units.
        exact roundQuotient_nearest _ _ (scaled_pos 2 den e Nat.two_pos hden) j)
      (by
        -- There are enough digits, unless the unit is the smallest one.
        rcases Nat.eq_zero_or_pos k with hzero | hpos
        · exact Or.inl hzero
        · right
          rw [le_div_iff₀ hunit, hbinade, ← zpow_add₀ two_ne_zero]
          refine le_trans (zpow_le_zpow_right₀ one_le_two ?_) hlow
          omega)
      (by
        -- There are not too many.
        rw [div_lt_iff₀ hunit, hbinade, mul_assoc, ← zpow_add₀ two_ne_zero,
          ← zpow_one_add₀ two_ne_zero]
        refine lt_of_lt_of_le hhigh (zpow_le_zpow_right₀ one_le_two ?_)
        omega)
    rw [← hk, div_mul_cancel₀ _ hunit.ne'] at hnearest
    exact hnearest

/-- A power of ten lies beyond that of eight. -/
theorem ten_zpow_le (exponent : Int) (h : exponent ≤ 0) :
    (10 : ℚ) ^ exponent ≤ 2 ^ (3 * exponent) := by
  obtain ⟨j, rfl⟩ := Int.exists_eq_neg_ofNat h
  rw [show 3 * -(j : Int) = -((3 * j : Nat) : Int) by push_cast; ring, zpow_neg, zpow_neg,
    zpow_natCast, zpow_natCast, pow_mul]
  exact inv_anti₀ (by positivity) (pow_le_pow_left₀ (by norm_num) (by norm_num) j)

theorem overflow_le_ten (exponent : Int) (h : 400 < exponent) : overflow ≤ 10 ^ exponent := by
  calc overflow ≤ 2 ^ 1024 := sub_le_self _ (by positivity)
    _ ≤ 2 ^ (3 * 400) := pow_le_pow_right₀ one_le_two (by norm_num)
    _ = (2 ^ 3) ^ 400 := pow_mul 2 3 400
    _ ≤ 10 ^ 400 := pow_le_pow_left₀ (by norm_num) (by norm_num) 400
    _ = 10 ^ (400 : Int) := (zpow_natCast 10 400).symm
    _ ≤ 10 ^ exponent := zpow_le_zpow_right₀ (by norm_num) h.le

/-- So is a decimal. Exponents far outside the range of doubles are decided
    without the power, by what one digit or all binary digits amount to; that is
    all right because the nearest double is the infinity or zero there
    anyway. -/
theorem ofDecimal_nearest (negative : Bool) (digits : Nat) (exponent : Int) :
    (ofDecimal negative digits exponent).IsNearest negative (digits * 10 ^ exponent) := by
  unfold ofDecimal
  by_cases hdigits : digits = 0
  · rw [if_pos hdigits, hdigits, Nat.cast_zero, zero_mul]
    exact zero_nearest negative 0 (le_refl _) (by rw [mul_zero]; positivity)
  · rw [if_neg hdigits]
    have hone : (1 : ℚ) ≤ digits := by exact_mod_cast Nat.pos_of_ne_zero hdigits
    by_cases hlarge : 400 < exponent
    · -- One digit is enough to be beyond all doubles.
      rw [if_pos hlarge]
      refine infinity_nearest negative _ ?_
      calc overflow ≤ 10 ^ exponent := overflow_le_ten exponent hlarge
        _ ≤ digits * 10 ^ exponent := le_mul_of_one_le_left (by positivity) hone
    · rw [if_neg hlarge]
      by_cases hsmall : (Nat.log2 digits : Int) + 3 * exponent < -1080
      · -- Each power of ten takes away three binary digits at least.
        rw [if_pos hsmall]
        refine zero_nearest negative _ (by positivity) ?_
        have hhigh := (log2_spec digits (Nat.pos_of_ne_zero hdigits)).2
        calc 2 * ((digits : ℚ) * 10 ^ exponent)
            < 2 * (2 ^ (Nat.log2 digits + 1) * 10 ^ exponent) := by gcongr
          _ ≤ 2 * (2 ^ (Nat.log2 digits + 1) * 2 ^ (3 * exponent)) := by
              gcongr
              exact ten_zpow_le exponent (by omega)
          _ = 2 ^ ((Nat.log2 digits : Int) + 3 * exponent + 2) := by
              rw [← zpow_natCast, ← zpow_add₀ two_ne_zero, ← zpow_one_add₀ two_ne_zero]
              congr 1
              push_cast
              ring
          _ ≤ 2 ^ (-1074 : Int) := zpow_le_zpow_right₀ one_le_two (by omega)
      · rw [if_neg hsmall]
        have hratio : (scaled 10 digits exponent : ℚ) / scaled 10 1 (-exponent) =
            digits * 10 ^ exponent := by
          have h := scaled_div 10 digits 1 (-exponent) (by decide)
          rw [neg_neg, Nat.cast_one, div_one] at h
          exact h
        rw [← hratio]
        exact ofRatio_nearest negative _ _ (scaled_pos 10 1 (-exponent) (by decide) Nat.one_pos)

/-! ### There is just one -/

/-- The next rank belongs to a larger double, and of two neighbours only one is
    even. Both are numbers of the same unit, also if the second one begins a
    binade. -/
theorem magnitude_next (x y : Binary64) (next : y.rank.val = x.rank.val + 1) :
    x.magnitude < y.magnitude ∧ (x.significand % 2 = 0 → y.significand % 2 ≠ 0) := by
  rcases x.rank_units with ⟨k, m, hx, hnormal, hm⟩
  have hy : y.rank.val = k * binade + (m + 1) := by omega
  rcases x.magnitude_of_rank k m hx hnormal hm.le with ⟨hxm, -, hxs⟩
  rcases y.magnitude_of_rank k (m + 1) hy (hnormal.imp id fun h => by omega) hm with
    ⟨hym, -, hys⟩
  constructor
  · rw [hxm, hym]
    push_cast
    exact mul_lt_mul_of_pos_right (lt_add_one _) (by positivity)
  · rw [hxs hm]
    intro heven
    -- Behind the even one no binade begins.
    have hbinade : binade % 2 = 0 := by decide
    have hlt : m + 1 < 2 * binade := by omega
    rw [hys hlt]
    omega

/-- Doubles of higher rank are larger. -/
theorem magnitude_strictMono (x y : Binary64) (h : x.rank.val < y.rank.val) :
    x.magnitude < y.magnitude := by
  -- The induction is on how many doubles are between the two.
  obtain ⟨d, hd⟩ : ∃ d, y.rank.val = x.rank.val + d + 1 := ⟨y.rank.val - x.rank.val - 1, by omega⟩
  induction d generalizing y with
  | zero => exact (magnitude_next x y hd).1
  | succ d ih =>
      have hlt := y.rank.isLt
      have hz : x.rank.val + d + 1 < 0x8000000000000000 := by omega
      have hbefore := ih ⟨false, ⟨x.rank.val + d + 1, hz⟩⟩ (by simp only []; omega) rfl
      exact hbefore.trans (magnitude_next ⟨false, ⟨x.rank.val + d + 1, hz⟩⟩ y hd).1

/-- Two doubles that are equally near, and none nearer, are neighbours. A double
    between them would be nearer to the middle, which is where the number has to
    be. -/
theorem neighbours_of_nearest (x y : Binary64) (q : ℚ) (hfinite : y.isFinite = true)
    (h : x.rank.val < y.rank.val) (xNear : ∀ z : Binary64, z.isFinite = true →
      |x.magnitude - q| ≤ |z.magnitude - q|) (same : |x.magnitude - q| = |y.magnitude - q|) :
    y.rank.val = x.rank.val + 1 := by
  by_contra hc
  have hlt := y.rank.isLt
  have hz : x.rank.val + 1 < 0x8000000000000000 := by omega
  have hxz := magnitude_strictMono x ⟨false, ⟨x.rank.val + 1, hz⟩⟩ (Nat.lt_succ_self _)
  have hzy := magnitude_strictMono ⟨false, ⟨x.rank.val + 1, hz⟩⟩ y (by simp only []; omega)
  have hznear := xNear ⟨false, ⟨x.rank.val + 1, hz⟩⟩ (by
    rw [isFinite, decide_eq_true_eq] at hfinite ⊢
    simp only []
    omega)
  generalize (⟨false, ⟨x.rank.val + 1, hz⟩⟩ : Binary64).magnitude = z at hxz hzy hznear
  -- The quotient is in the middle between the two, and the third double is
  -- nearer to it.
  have hmiddle : x.magnitude - q = -(y.magnitude - q) := by
    rcases abs_eq_abs.mp same with heq | heq
    · linarith
    · exact heq
  rw [abs_of_neg (show x.magnitude - q < 0 by linarith), le_abs] at hznear
  rcases hznear with hznear | hznear
  · linarith
  · linarith

/-- There is just one nearest double. Two of them would be neighbours, at the
    same distance on either side, and both would be even. So what is said of
    rounding by distances determines the double. -/
theorem IsNearest.unique {x y : Binary64} {negative : Bool} {q : ℚ} (hx : x.IsNearest negative q)
    (hy : y.IsNearest negative q) : x = y := by
  have hnumber : ∀ z : Binary64, z.isNaN = false → z.isInfinite = false → z.isFinite = true := by
    intro z hnan hinf
    rw [isNaN, decide_eq_false_iff_not] at hnan
    rw [isInfinite, beq_eq_false_iff_ne] at hinf
    rw [isFinite, decide_eq_true_eq]
    omega
  have hrank : x.rank.val = y.rank.val := by
    by_cases hq : overflow ≤ q
    · have hxi := hx.infinite.mpr hq
      have hyi := hy.infinite.mpr hq
      rw [isInfinite, beq_iff_eq] at hxi hyi
      rw [hxi, hyi]
    · have hxf := hnumber x hx.number (Bool.eq_false_iff.mpr fun h => hq (hx.infinite.mp h))
      have hyf := hnumber y hy.number (Bool.eq_false_iff.mpr fun h => hq (hy.infinite.mp h))
      have hsame := le_antisymm (hx.nearest hxf y hyf) (hy.nearest hyf x hxf)
      -- If they were different they would be neighbours, and both even.
      rcases Nat.lt_trichotomy x.rank.val y.rank.val with hlt | heq | hlt
      · have hnext := neighbours_of_nearest x y q hyf hlt (hx.nearest hxf) hsame
        have hne := (magnitude_strictMono x y hlt).ne
        exact absurd (hy.even hyf x hxf hne hsame.symm)
          ((magnitude_next x y hnext).2 (hx.even hxf y hyf hne.symm hsame))
      · exact heq
      · have hnext := neighbours_of_nearest y x q hxf hlt (hy.nearest hyf) hsame.symm
        have hne := (magnitude_strictMono y x hlt).ne
        exact absurd (hx.even hxf y hyf hne hsame)
          ((magnitude_next y x hnext).2 (hy.even hyf x hxf hne.symm hsame.symm))
  have hsign : x.negative = y.negative := hx.sign.trans hy.sign.symm
  rcases x with ⟨nx, rx⟩
  rcases y with ⟨ny, ry⟩
  obtain rfl : nx = ny := hsign
  obtain rfl : rx = ry := Fin.ext hrank
  rfl

end Binary64

end RowScope
