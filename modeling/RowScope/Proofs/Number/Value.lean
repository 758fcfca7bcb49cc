import RowScope.Proofs.Number.Nearest

/-!
# The Numbers That Doubles Are

A finite double is a rational number. The order of doubles is that of these
numbers, with the infinities around all of them; what is not a number stands in
no order. It is said here without the ranks, so that what is shown of the order
of doubles is about their numbers and not about their encoding.

## Main definitions

* `signed`: A rational number with a sign.
* `Binary64.value`: The rational number that a finite double is.
* `Binary64.Le`: The order of doubles.

## Theorems

* `ratio_magnitude`: The magnitude as a quotient.
* `magnitude_eq_zero_iff`: Only the zeros are zero.
* `Le.value_le`: The order of finite doubles is that of their numbers.
* `value_le_iff`: It is also that of their places among all numbers.
* `atMost_iff`: To compare doubles is to ask for their order.
-/

namespace RowScope

/-- A rational number with a sign. -/
def signed (negative : Bool) (q : ℚ) : ℚ := if negative then -q else q

@[simp]
theorem signed_false (q : ℚ) : signed false q = q := rfl

@[simp]
theorem signed_true (q : ℚ) : signed true q = -q := rfl

namespace Binary64

/-- The rational number that a finite double is. -/
def value (x : Binary64) : ℚ := signed x.negative x.magnitude

/-- One double is not above another: both are numbers, and if one of them is
    infinite, then it is so on its own side. -/
inductive Le (x y : Binary64) : Prop
  | between (left : x.isFinite = true) (right : y.isFinite = true) (le : x.value ≤ y.value)
  | below (infinite : x.isInfinite = true) (negative : x.negative = true)
      (number : y.isNaN = false)
  | above (number : x.isNaN = false) (infinite : y.isInfinite = true)
      (positive : y.negative = false)

theorem le_iff (x y : Binary64) : x.Le y ↔
    (x.isFinite = true ∧ y.isFinite = true ∧ x.value ≤ y.value) ∨
      (x.isInfinite = true ∧ x.negative = true ∧ y.isNaN = false) ∨
        (x.isNaN = false ∧ y.isInfinite = true ∧ y.negative = false) := by
  constructor
  · intro h
    cases h with
    | between left right le => exact Or.inl ⟨left, right, le⟩
    | below infinite negative number => exact Or.inr (Or.inl ⟨infinite, negative, number⟩)
    | above number infinite positive => exact Or.inr (Or.inr ⟨number, infinite, positive⟩)
  · rintro (⟨left, right, le⟩ | ⟨infinite, negative, number⟩ | ⟨number, infinite, positive⟩)
    · exact .between left right le
    · exact .below infinite negative number
    · exact .above number infinite positive

instance (x y : Binary64) : Decidable (x.Le y) := decidable_of_iff' _ (le_iff x y)

/-- A number is finite or infinite, and not both. This is how cases on doubles
    are split once those that are not numbers are out of the way. -/
theorem finite_or_infinite (x : Binary64) (number : x.isNaN = false) :
    x.isFinite = true ∧ x.isInfinite = false ∨ x.isFinite = false ∧ x.isInfinite = true := by
  rw [isNaN, decide_eq_false_iff_not] at number
  rw [isFinite, isInfinite, decide_eq_true_eq, decide_eq_false_iff_not, beq_iff_eq,
    beq_eq_false_iff_ne]
  omega

theorem isNaN_of_isFinite (x : Binary64) (finite : x.isFinite = true) : x.isNaN = false := by
  rw [isFinite, decide_eq_true_eq] at finite
  rw [isNaN, decide_eq_false_iff_not]
  omega

theorem isNaN_of_isInfinite (x : Binary64) (infinite : x.isInfinite = true) :
    x.isNaN = false := by
  rw [isInfinite, beq_iff_eq] at infinite
  rw [isNaN, decide_eq_false_iff_not, infinite]
  exact Nat.lt_irrefl _

theorem isInfinite_of_isFinite (x : Binary64) (finite : x.isFinite = true) :
    x.isInfinite = false := by
  rcases x.finite_or_infinite (x.isNaN_of_isFinite finite) with ⟨-, h⟩ | ⟨h, -⟩
  · exact h
  · rw [finite] at h
    exact nomatch h

/-- The order of finite doubles is that of their numbers. Both zeros are the
    same number, so each of them is not above the other. -/
theorem Le.value_le {x y : Binary64} (h : x.Le y) (hx : x.isFinite = true)
    (hy : y.isFinite = true) : x.value ≤ y.value := by
  cases h with
  | between left right le => exact le
  | below infinite negative number =>
      rw [x.isInfinite_of_isFinite hx] at infinite
      exact nomatch infinite
  | above number infinite positive =>
      rw [y.isInfinite_of_isFinite hy] at infinite
      exact nomatch infinite

/-! ### Magnitudes -/

/-- The magnitude as a quotient. -/
theorem ratio_magnitude (x : Binary64) : (x.ratio.1 : ℚ) / x.ratio.2 = x.magnitude := by
  have h := scaled_div 2 x.significand 1 (-x.exponent) (by decide)
  rw [neg_neg, Nat.cast_one, div_one] at h
  exact h

theorem ratio_pos (x : Binary64) : 0 < x.ratio.2 :=
  scaled_pos 2 1 (-x.exponent) (by decide) Nat.one_pos

theorem magnitude_nonneg (x : Binary64) : 0 ≤ x.magnitude := by
  unfold magnitude
  positivity

/-- Only the zeros are zero. -/
theorem significand_eq_zero_iff (x : Binary64) : x.significand = 0 ↔ x.isZero = true := by
  have hbinade := binade_pos
  rw [isZero, beq_iff_eq, significand]
  split
  · exact Iff.rfl
  · omega

/-- Only the zeros are zero. The powers of two are positive, and the significand
    is zero for no other rank. -/
theorem magnitude_eq_zero_iff (x : Binary64) : x.magnitude = 0 ↔ x.isZero = true := by
  rw [← significand_eq_zero_iff, magnitude, mul_eq_zero, Nat.cast_eq_zero]
  exact or_iff_left (by positivity)

theorem ratio_num_pos (x : Binary64) (nonzero : x.isZero = false) : 0 < x.ratio.1 := by
  refine scaled_pos 2 x.significand x.exponent (by decide) (Nat.pos_of_ne_zero fun h => ?_)
  rw [x.significand_eq_zero_iff.mp h] at nonzero
  exact nomatch nonzero

/-! ### Comparisons -/

/-- Magnitudes are in the order of their ranks. -/
theorem magnitude_le_iff (x y : Binary64) :
    x.magnitude ≤ y.magnitude ↔ x.rank.val ≤ y.rank.val := by
  constructor
  · intro h
    exact Nat.le_of_not_lt fun hlt => (magnitude_strictMono y x hlt).not_ge h
  · intro h
    rcases Nat.lt_or_eq_of_le h with hlt | heq
    · exact (magnitude_strictMono x y hlt).le
    · -- The magnitude is made from the rank alone.
      rw [magnitude, magnitude, significand, significand, exponent, exponent, heq]

/-- Values are in the order of their places, also across zero: the places of
    negative numbers count down, and the two zeros share one. -/
theorem value_le_iff (x y : Binary64) : x.value ≤ y.value ↔ x.place ≤ y.place := by
  have hx := x.magnitude_nonneg
  have hy := y.magnitude_nonneg
  have hzero : ∀ z : Binary64, z.magnitude = 0 ↔ z.rank.val = 0 := by
    intro z
    rw [magnitude_eq_zero_iff, isZero, beq_iff_eq]
  unfold value place
  cases x.negative with
  | false =>
      cases y.negative with
      | false => exact (magnitude_le_iff x y).trans Int.ofNat_le.symm
      | true =>
          -- Only zero is not above a number that is not positive.
          have hboth : x.magnitude ≤ -y.magnitude ↔ x.magnitude = 0 ∧ y.magnitude = 0 :=
            ⟨fun h => ⟨by linarith, by linarith⟩, fun h => by rw [h.1, h.2, neg_zero]⟩
          rw [signed_false, signed_true, hboth, hzero, hzero, if_pos rfl,
            if_neg Bool.false_ne_true]
          omega
  | true =>
      cases y.negative with
      | false =>
          rw [signed_false, signed_true, if_pos rfl, if_neg Bool.false_ne_true]
          exact ⟨fun _ => by omega, fun _ => by linarith⟩
      | true =>
          rw [signed_true, signed_true, if_pos rfl, if_pos rfl, neg_le_neg_iff, magnitude_le_iff]
          omega

/-- Numbers have places from one infinity to the other. -/
theorem place_bounds (x : Binary64) (number : x.isNaN = false) :
    -(infiniteRank : Int) ≤ x.place ∧ x.place ≤ infiniteRank := by
  rw [isNaN, decide_eq_false_iff_not] at number
  unfold place
  split
  · omega
  · omega

/-- The place of a finite double is strictly between the infinities. -/
theorem place_inside (x : Binary64) (finite : x.isFinite = true) :
    -(infiniteRank : Int) < x.place ∧ x.place < infiniteRank := by
  rw [isFinite, decide_eq_true_eq] at finite
  unfold place
  split
  · omega
  · omega

theorem place_of_isInfinite (x : Binary64) (infinite : x.isInfinite = true) :
    x.place = if x.negative then -(infiniteRank : Int) else infiniteRank := by
  rw [isInfinite, beq_iff_eq] at infinite
  rw [place, infinite]

/-- To compare doubles is to ask for their order. Finite doubles are compared by
    their places. The infinities have places as well, one at either end, so that
    comparing places is enough for them too. What is not a number is sorted out
    first. -/
theorem atMost_iff (x y : Binary64) : x.atMost y = true ↔ x.Le y := by
  rw [atMost, Bool.and_eq_true, Bool.and_eq_true, Bool.not_eq_true', Bool.not_eq_true',
    decide_eq_true_eq]
  constructor
  · rintro ⟨⟨hx, hy⟩, hplace⟩
    rcases x.finite_or_infinite hx with ⟨xfinite, -⟩ | ⟨-, xinfinite⟩
    · rcases y.finite_or_infinite hy with ⟨yfinite, -⟩ | ⟨-, yinfinite⟩
      · exact .between xfinite yfinite ((value_le_iff x y).mpr hplace)
      · -- The negative infinity is below every finite double.
        refine .above hx yinfinite ?_
        by_contra hnegative
        rw [place_of_isInfinite y yinfinite, if_pos (Bool.of_not_eq_false hnegative)] at hplace
        exact absurd (x.place_inside xfinite).1 (not_lt.mpr hplace)
    · cases hsign : x.negative with
      | true => exact .below xinfinite hsign hy
      | false =>
          -- Only the positive infinity is as far up as itself.
          rw [place_of_isInfinite x xinfinite, if_neg (ne_true_of_eq_false hsign)] at hplace
          rcases y.finite_or_infinite hy with ⟨yfinite, -⟩ | ⟨-, yinfinite⟩
          · exact absurd (y.place_inside yfinite).2 (not_lt.mpr hplace)
          · refine .above hx yinfinite ?_
            by_contra hnegative
            rw [place_of_isInfinite y yinfinite, if_pos (Bool.of_not_eq_false hnegative)] at hplace
            exact absurd hplace (by decide)
  · intro h
    cases h with
    | between left right le =>
        exact ⟨⟨x.isNaN_of_isFinite left, y.isNaN_of_isFinite right⟩, (value_le_iff x y).mp le⟩
    | below infinite negative number =>
        refine ⟨⟨x.isNaN_of_isInfinite infinite, number⟩, ?_⟩
        rw [place_of_isInfinite x infinite, if_pos negative]
        exact (y.place_bounds number).1
    | above number infinite positive =>
        refine ⟨⟨number, y.isNaN_of_isInfinite infinite⟩, ?_⟩
        rw [place_of_isInfinite y infinite, if_neg (ne_true_of_eq_false positive)]
        exact (x.place_bounds number).2

end Binary64

end RowScope
