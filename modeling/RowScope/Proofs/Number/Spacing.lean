import Mathlib.Algebra.Order.Archimedean.Basic
import RowScope.Proofs.Number.Significant
import RowScope.Proofs.Number.Value

/-!
# Fifteen Digits and the Spacing of Doubles

A number of fifteen digits is read as the nearest double, and this double is
rounded to fifteen digits again. What comes out is the number if the double is
near enough: nearer than half of what the last digit counts, or a tenth of that
below a power of ten, where the digits get finer.

Doubles are spaced by powers of two, and digits by powers of ten, but no matter
how both meet in a binade the last of fifteen digits counts more than four
units, because `10 ^ 15 < 2 ^ 52`. The unit gets no smaller than `2 ^ -1074`,
though. From `10 ^ -309` on the last digit still counts more than two of these,
which is enough except below a power of ten; and there is just one power of ten
that this concerns, `10 ^ -309` itself, whose nearest double is above it.

Below `10 ^ -309` the last digit counts less than the unit. Then rounding has
moved the double by less than half a unit, and the nearest double to the result
is the double itself. This does not make every such number survive, but those
that a double is rounded to.

## Main definitions

* `Binary64.IsClose`: Near enough to a number of fifteen digits to be rounded to
  it.

## Theorems

* `IsNearest.close`: The nearest double is half a unit away at most.
* `magnitude_eq_of_near`: Doubles nearer than half the smallest unit are the
  nearest.
* `last_digit`: How the last of fifteen digits compares with the smallest unit.
* `IsNearest.isClose`: Where the last digit counts more, the nearest double is
  near enough.
* `IsNearest.rounded_again`: Read as a double, a rounded double is rounded to
  the same number.
-/

namespace RowScope

namespace Binary64

/-! ### The unit of a double -/

/-- A number that is not negative is rounded to some number. -/
theorem exists_nearest (r : ℚ) (hr : 0 ≤ r) : ∃ m : Nat, ∀ j : Int, |(m : ℚ) - r| ≤ |(j : ℚ) - r| ∧
    (j ≠ m → |(m : ℚ) - r| = |(j : ℚ) - r| → m % 2 = 0) := by
  have hratio : (r.num.toNat : ℚ) / r.den = r := by
    have hnum : ((r.num.toNat : Int) : ℚ) = r.num := by
      rw [Int.toNat_of_nonneg (Rat.num_nonneg.mpr hr)]
    rw [← Int.cast_natCast, hnum, Rat.num_div_den]
  refine ⟨roundQuotient r.num.toNat r.den, fun j => ?_⟩
  have h := roundQuotient_nearest r.num.toNat r.den r.den_pos j
  rw [hratio] at h
  exact h

/-- Every positive number has a unit: it is less than two binades of them, and
    not less than one unless the unit is the smallest. It is the unit that
    doubles of this size have, though the number need not be a double. -/
theorem exists_unit (q : ℚ) (hq : 0 < q) : ∃ k : Nat,
    (k = 0 ∨ (binade : ℚ) ≤ q / 2 ^ ((k : Int) - 1074)) ∧
      q / 2 ^ ((k : Int) - 1074) < 2 * binade := by
  rcases exists_mem_Ico_zpow hq one_lt_two with ⟨f, hlow, hhigh⟩
  obtain ⟨k, hk⟩ : ∃ k : Nat, max (f - 52) (-1074) = (k : Int) - 1074 :=
    ⟨(max (f - 52) (-1074) + 1074).toNat, by omega⟩
  have hunit : (0 : ℚ) < 2 ^ ((k : Int) - 1074) := by positivity
  have hbinade : (binade : ℚ) = 2 ^ (52 : Int) := by norm_num [binade]
  refine ⟨k, ?_, ?_⟩
  · rcases Nat.eq_zero_or_pos k with hzero | hpos
    · exact Or.inl hzero
    · right
      rw [le_div_iff₀ hunit, hbinade, ← zpow_add₀ two_ne_zero]
      exact le_trans (zpow_le_zpow_right₀ one_le_two (by omega)) hlow
  · rw [div_lt_iff₀ hunit, hbinade, mul_assoc, ← zpow_add₀ two_ne_zero,
      ← zpow_one_add₀ two_ne_zero]
    exact lt_of_lt_of_le hhigh (zpow_le_zpow_right₀ one_le_two (by omega))

/-- The nearest double is at most half a unit away, which is the smallest one or
    a small part of the number. Which double it is follows from rounding to
    units, since there is just one nearest double. -/
theorem IsNearest.close {x : Binary64} {negative : Bool} {q : ℚ} (h : x.IsNearest negative q)
    (finite : x.isFinite = true) (hq : 0 < q) :
    ∃ e : Int, (e = -1074 ∨ 2 ^ 52 * 2 ^ e ≤ q) ∧ |x.magnitude - q| ≤ 2 ^ e / 2 := by
  rcases exists_unit q hq with ⟨k, hnormal, hlt⟩
  have hunit : (0 : ℚ) < 2 ^ ((k : Int) - 1074) := by positivity
  rcases exists_nearest (q / 2 ^ ((k : Int) - 1074)) (by positivity) with ⟨m, hm⟩
  -- The double is the one of so many units, since there is just one nearest
  -- double.
  have hnearest := ofRank_nearest negative k m _ hm hnormal hlt
  rw [div_mul_cancel₀ _ hunit.ne'] at hnearest
  obtain rfl := h.unique hnearest
  have hrank := ofRank_rank negative _ ((ofRank_isFinite negative _).mp finite)
  have hmagnitude := (magnitude_of_rank _ k m hrank
    (hnormal.imp id (binade_le m _ hm)) (units_le m _ hm hlt)).1
  refine ⟨(k : Int) - 1074, ?_, ?_⟩
  · rcases hnormal with hzero | hle
    · left
      omega
    · right
      have hbinade : (binade : ℚ) = 2 ^ 52 := by norm_num [binade]
      rw [le_div_iff₀ hunit, hbinade] at hle
      exact hle
  · rw [hmagnitude, abs_sub_comm]
    exact (IsRoundedTo.of_nearest hm).distance hunit

/-- Doubles that are closer than the smallest unit have the same magnitude. All
    of them are whole numbers of this unit. -/
theorem rank_eq_of_close (x y : Binary64) (h : |x.magnitude - y.magnitude| < 2 ^ (-1074 : Int)) :
    x.rank = y.rank := by
  rcases x.magnitude_units _ x.exponent_ge with ⟨i, hi⟩
  rcases y.magnitude_units _ y.exponent_ge with ⟨j, hj⟩
  have hunit : (0 : ℚ) < 2 ^ (-1074 : Int) := by positivity
  have hij : i = j := by
    rw [hi, hj, ← sub_mul, abs_mul, abs_of_pos hunit, mul_lt_iff_lt_one_left hunit] at h
    have hint : |i - j| < 1 := by exact_mod_cast h
    exact sub_eq_zero.mp (Int.abs_lt_one_iff.mp hint)
  rw [hij, ← hj] at hi
  rcases Nat.lt_trichotomy x.rank.val y.rank.val with hlt | heq | hlt
  · exact absurd hi (magnitude_strictMono x y hlt).ne
  · exact Fin.ext heq
  · exact absurd hi (magnitude_strictMono y x hlt).ne'

/-! ### Fifteen digits -/

/-- How a power of ten compares with the smallest unit, as a comparison of
    numbers. -/
theorem tenth_lt_units_iff (a b : ℚ) (k : Nat) :
    (a * 10 ^ (-(k : Int)) < b * 2 ^ (-1074 : Int) ↔ a * 2 ^ 1074 < b * 10 ^ k) ∧
      (b * 2 ^ (-1074 : Int) < a * 10 ^ (-(k : Int)) ↔ b * 10 ^ k < a * 2 ^ 1074) := by
  rw [show (-1074 : Int) = -(1074 : Nat) from rfl, zpow_neg, zpow_neg, zpow_natCast, zpow_natCast,
    ← div_eq_mul_inv, ← div_eq_mul_inv]
  exact ⟨div_lt_div_iff₀ (by positivity) (by positivity),
    div_lt_div_iff₀ (by positivity) (by positivity)⟩

/-- The first power of ten at which the last of fifteen digits counts more than
    the smallest unit. The nearest double is the one above it, so it need not be
    closer than that. Which side it is on is computed, from the number of
    smallest units in the power. -/
theorem not_below_of_close (y : Binary64)
    (close : |y.magnitude - 10 ^ (-309 : Int)| ≤ 2 ^ (-1074 : Int) / 2) :
    (10 : ℚ) ^ (-309 : Int) ≤ y.magnitude := by
  rcases y.magnitude_units _ y.exponent_ge with ⟨n, hn⟩
  -- It lies between two doubles, behind the middle.
  have hbehind : (2 * 202402253307310 + 1) * (2 : ℚ) ^ (-1074 : Int) < 2 * 10 ^ (-309 : Int) := by
    refine (tenth_lt_units_iff _ _ 309).2.mpr ?_
    exact_mod_cast (by decide +kernel : (2 * 202402253307310 + 1) * 10 ^ 309 < 2 * 2 ^ 1074)
  have hbefore : 1 * (10 : ℚ) ^ (-309 : Int) < 202402253307311 * 2 ^ (-1074 : Int) := by
    refine (tenth_lt_units_iff _ _ 309).1.mpr ?_
    exact_mod_cast (by decide +kernel : 1 * 2 ^ 1074 < 202402253307311 * 10 ^ 309)
  have hunit : (0 : ℚ) < 2 ^ (-1074 : Int) := by positivity
  rw [hn] at close ⊢
  generalize (2 : ℚ) ^ (-1074 : Int) = u at *
  generalize (10 : ℚ) ^ (-309 : Int) = t at *
  by_contra hc
  have hlt : (n : ℚ) < 202402253307311 := by
    by_contra hge
    have hmul := mul_le_mul_of_nonneg_right (not_lt.mp hge) hunit.le
    linarith
  have hle : (n : ℚ) ≤ 202402253307310 := by
    exact_mod_cast Int.le_of_lt_add_one (by exact_mod_cast hlt : n < 202402253307310 + 1)
  have hmul := mul_le_mul_of_nonneg_right hle hunit.le
  have habs := abs_le.mp close
  linarith

/-- A double that is no farther from a number than another one, which is so near
    that the smallest unit does not fit in between, is the same one. The two are
    closer to each other than this unit. -/
theorem magnitude_eq_of_near (x y : Binary64) (s : ℚ)
    (nearer : |y.magnitude - s| ≤ |x.magnitude - s|)
    (near : |x.magnitude - s| < 2 ^ (-1074 : Int) / 2) : y.magnitude = x.magnitude := by
  have hclose : |y.magnitude - x.magnitude| < 2 ^ (-1074 : Int) := by
    have h := abs_sub_le y.magnitude s x.magnitude
    rw [abs_sub_comm s] at h
    generalize (2 : ℚ) ^ (-1074 : Int) = u at *
    linarith
  rw [magnitude, magnitude, significand, significand, exponent, exponent,
    rank_eq_of_close y x hclose]

/-- The last of fifteen digits counts less than the smallest unit if the first
    one counts a small power of ten, and more than two of them otherwise. -/
theorem last_digit (e : Int) : (e ≤ -310 → (10 : ℚ) ^ (e + 1 - (15 : Nat)) < 2 ^ (-1074 : Int)) ∧
    (-309 ≤ e → 2 * 2 ^ (-1074 : Int) < (10 : ℚ) ^ (e + 1 - (15 : Nat))) := by
  constructor
  · intro he
    -- The exponents are far apart, but the powers of both kinds grow, so one
    -- comparison on each side is enough.
    have hsmall : 1 * (10 : ℚ) ^ (-324 : Int) < 1 * 2 ^ (-1074 : Int) := by
      refine (tenth_lt_units_iff _ _ 324).1.mpr ?_
      exact_mod_cast (by decide +kernel : 1 * 2 ^ 1074 < 1 * 10 ^ 324)
    rw [one_mul, one_mul] at hsmall
    exact lt_of_le_of_lt (zpow_le_zpow_right₀ (by norm_num) (by omega)) hsmall
  · intro he
    have hlarge : 2 * (2 : ℚ) ^ (-1074 : Int) < 1 * 10 ^ (-323 : Int) := by
      refine (tenth_lt_units_iff _ _ 323).2.mpr ?_
      exact_mod_cast (by decide +kernel : 2 * 10 ^ 323 < 1 * 2 ^ 1074)
    rw [one_mul] at hlarge
    exact lt_of_lt_of_le hlarge (zpow_le_zpow_right₀ (by norm_num) (by omega))

/-- The last of fifteen digits before a power of ten counts a tenth of the one
    behind it. -/
theorem last_digit_before (e : Int) :
    (10 : ℚ) ^ (e + 1 - (15 : Nat)) = 10 ^ (e - 1 + 1 - (15 : Nat)) * 10 := by
  rw [← zpow_add_one₀ (by norm_num)]
  congr 1
  omega

/-- A number of fifteen digits is read so closely that the double is rounded to
    it: at most a quarter of the last digit away, and below a power of ten a
    quarter of the finer digits there. -/
structure IsClose (y : Binary64) (e : Int) (c : Nat) : Prop where
  quarter : |y.magnitude - c * 10 ^ (e + 1 - (15 : Nat))| ≤ 10 ^ (e + 1 - (15 : Nat)) / 4
  power : c = 10 ^ (15 - 1) → (c : ℚ) * 10 ^ (e + 1 - (15 : Nat)) ≤ y.magnitude ∨
    |y.magnitude - c * 10 ^ (e + 1 - (15 : Nat))| ≤ 10 ^ (e + 1 - (15 : Nat)) / 40

/-- Half the smallest unit is close enough where the last digit counts more than
    two of them. Below a power of ten, where the digits are finer, it is still
    enough except at one of them. -/
theorem IsClose.of_smallest {y : Binary64} {e : Int} {c : Nat} (large : -309 ≤ e)
    (close : |y.magnitude - c * 10 ^ (e + 1 - (15 : Nat))| ≤ 2 ^ (-1074 : Int) / 2) :
    y.IsClose e c := by
  refine ⟨close.trans ?_, ?_⟩
  · have hlarge := (last_digit e).2 large
    generalize (10 : ℚ) ^ (e + 1 - (15 : Nat)) = d at hlarge ⊢
    generalize (2 : ℚ) ^ (-1074 : Int) = u at hlarge ⊢
    linarith
  · rintro rfl
    -- Only at one power of ten it is not a small part of the last digit.
    rcases large.eq_or_lt with rfl | hlt
    · left
      rw [(power_units (show 0 < 15 by decide) (-309)).1] at close ⊢
      exact not_below_of_close y close
    · right
      refine close.trans ?_
      have hbelow := (last_digit (e - 1)).2 (by omega)
      rw [last_digit_before]
      generalize (10 : ℚ) ^ (e - 1 + 1 - (15 : Nat)) = d at hbelow ⊢
      generalize (2 : ℚ) ^ (-1074 : Int) = u at hbelow ⊢
      linarith

/-- Half a unit is close enough where it is a small part of the number. The last
    of fifteen digits counts at least `10 ^ -15` of the number, and the unit at
    most `2 ^ -52` of it. -/
theorem IsClose.of_small {y : Binary64} {e f : Int} {c : Nat} (high : c ≤ 10 ^ 15)
    (small : 2 ^ 52 * 2 ^ f ≤ (c : ℚ) * 10 ^ (e + 1 - (15 : Nat)))
    (close : |y.magnitude - c * 10 ^ (e + 1 - (15 : Nat))| ≤ 2 ^ f / 2) : y.IsClose e c := by
  have hpos : (0 : ℚ) < 10 ^ (e + 1 - (15 : Nat)) := by positivity
  have hc : (c : ℚ) ≤ 10 ^ 15 := by exact_mod_cast high
  have hmul := mul_le_mul_of_nonneg_right hc hpos.le
  refine ⟨close.trans ?_, ?_⟩
  · generalize (10 : ℚ) ^ (e + 1 - (15 : Nat)) = d at *
    linarith
  · -- At a power of ten the digits below are ten times finer, but the number is
    -- also the smallest one with so many digits.
    rintro rfl
    right
    refine close.trans ?_
    generalize (10 : ℚ) ^ (e + 1 - (15 : Nat)) = d at *
    norm_num at small
    linarith

/-- From some power of ten on, the nearest double is close enough. -/
theorem IsNearest.isClose {y : Binary64} {negative : Bool} {e : Int} {c : Nat}
    (nearest : y.IsNearest negative (c * 10 ^ (e + 1 - (15 : Nat)))) (finite : y.isFinite = true)
    (large : -309 ≤ e) (low : 10 ^ (15 - 1) ≤ c) (high : c ≤ 10 ^ 15) : y.IsClose e c := by
  have hc : 0 < c := lt_of_lt_of_le (by decide) low
  rcases nearest.close finite (by positivity) with ⟨f, rfl | small, close⟩
  · exact .of_smallest large close
  · exact .of_small high small close

/-- Read as a double and rounded again, a number of fifteen digits is what it
    was, if a double was rounded to it. Where the digits are finer than doubles,
    the nearest double is the one that was rounded. Where they are coarser, it
    is close enough to be rounded back. -/
theorem IsNearest.rounded_again {x y : Binary64} {negative : Bool} {s : ℚ}
    (hx : x.isFinite = true) (hy : y.isFinite = true) (rounded : IsRounded 15 x.magnitude s)
    (nearest : y.IsNearest negative s) : IsRounded 15 y.magnitude s := by
  have hnear := nearest.nearest hy x hx
  generalize hq : x.magnitude = q at rounded
  cases rounded with
  | zero =>
      rw [hq, sub_zero, sub_zero, abs_zero] at hnear
      rw [abs_nonpos_iff.mp hnear]
      exact .zero
  | @digits q e c leading units =>
      rcases units.digits (by decide) leading with ⟨hlow, hhigh⟩
      rcases le_or_gt e (-310) with he | he
      · -- No other double is as near as the one that was rounded.
        have hdistance := units.distance (by positivity)
        have hsmall := (last_digit e).1 he
        have hsame := magnitude_eq_of_near x y _ hnear (by
          rw [hq]
          exact lt_of_le_of_lt hdistance (div_lt_div_of_pos_right hsmall two_pos))
        rw [hsame, hq]
        exact .digits leading units
      · have hclose := nearest.isClose hy (by omega) hlow hhigh
        exact .of_close (by decide) hlow hhigh hclose.quarter hclose.power

end Binary64

end RowScope
