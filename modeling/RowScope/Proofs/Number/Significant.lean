import RowScope.Number.Layout
import RowScope.Proofs.Number.Digits
import RowScope.Proofs.Number.Nearest

/-!
# Significant Digits

A number is rounded to so many significant digits by counting them from its
leading digit on: the exponent of that digit gives the unit of the last one, and
the number is rounded to the nearest number of units, the even one of two. That
may give the next power of ten, which then has a leading digit one place higher;
its own digits are all zero but the first, so the rounded number is the same
whichever unit it is counted in.

Rounding in this sense says what a number is rounded to, and not how. That the
computed digits are those is one thing, and that rounding keeps the order of
numbers is another: within one power of ten because the unit is the same, and
beyond it because a rounded number does not pass the powers of ten around the
number.

## Main definitions

* `IsRoundedTo`: The number of units that a rational number is rounded to.
* `HasExponent`: The power of ten that the leading digit counts.
* `IsRounded`: A rational number rounded to significant digits.
* `Scientific.value`, `Scientific.HasPlaces`: The number that digits and an
  exponent are.

## Theorems

* `floorLog10_spec`: The exponent of the leading decimal digit.
* `IsRounded.mono`, `IsRounded.unique`: Rounding keeps the order, and has one
  result.
* `IsRounded.of_close`: What is close to a rounded number is rounded to it.
* `Scientific.HasPlaces.unique`: There is one way to write a number with so many
  digits.
* `Scientific.ofRatio_spec`: A quotient is rounded to significant digits.
-/

namespace RowScope

/-- A number is the one that a rational number is rounded to: at most half away,
    and even if it is just half away. -/
structure IsRoundedTo (n : Nat) (r : ℚ) : Prop where
  half : |(n : ℚ) - r| ≤ 1 / 2
  even : |(n : ℚ) - r| = 1 / 2 → n % 2 = 0

/-- The leading digit of a rational number counts a power of ten. -/
structure HasExponent (q : ℚ) (e : Int) : Prop where
  low : 10 ^ e ≤ q
  high : q < 10 ^ (e + 1)

/-- A rational number that is rounded to so many significant digits. -/
inductive IsRounded (places : Nat) : ℚ → ℚ → Prop
  | zero : IsRounded places 0 0
  | digits {q : ℚ} {e : Int} {c : Nat} (leading : HasExponent q e)
      (nearest : IsRoundedTo c (q / 10 ^ (e + 1 - places))) :
      IsRounded places q (c * 10 ^ (e + 1 - places))

namespace Scientific

/-- The number that significant digits and an exponent are. -/
def value (places : Nat) (s : Scientific) : ℚ :=
  s.coefficient * 10 ^ (s.exponent + 1 - places)

/-- There are just so many significant digits. -/
structure HasPlaces (places : Nat) (s : Scientific) : Prop where
  low : 10 ^ (places - 1) ≤ s.coefficient
  high : s.coefficient < 10 ^ places

end Scientific

/-! ### Rounding to an integer -/

/-- A number that no integer is nearer than is at most half away. It is enough
    to compare it with its two neighbours, and if it is just half away from the
    rounded number then one of them is as near. -/
theorem IsRoundedTo.of_nearest {m : Nat} {r : ℚ}
    (nearest : ∀ j : Int, |(m : ℚ) - r| ≤ |(j : ℚ) - r| ∧
      (j ≠ m → |(m : ℚ) - r| = |(j : ℚ) - r| → m % 2 = 0)) : IsRoundedTo m r := by
  have habove := nearest (m + 1)
  have hbelow := nearest (m - 1)
  push_cast at habove hbelow
  refine ⟨abs_le.mpr ⟨?_, ?_⟩, ?_⟩
  · -- Otherwise the next number would be nearer.
    by_contra hc
    have hlt : |(m : ℚ) + 1 - r| < -(m - r) := abs_lt.mpr ⟨by linarith, by linarith⟩
    linarith [neg_le_abs ((m : ℚ) - r), habove.1]
  · by_contra hc
    have hlt : |(m : ℚ) - 1 - r| < m - r := abs_lt.mpr ⟨by linarith, by linarith⟩
    linarith [le_abs_self ((m : ℚ) - r), hbelow.1]
  · intro htie
    -- The neighbour on the other side is half away as well.
    rcases eq_or_eq_neg_of_abs_eq htie with hup | hdown
    · refine hbelow.2 (by omega) ?_
      rw [htie, show (m : ℚ) - 1 - r = -(1 / 2) by linarith, abs_neg, abs_of_pos (by norm_num)]
    · refine habove.2 (by omega) ?_
      rw [htie, show (m : ℚ) + 1 - r = 1 / 2 by linarith, abs_of_pos (by norm_num)]

namespace IsRoundedTo

variable {n m : Nat} {r s : ℚ}

theorem self (n : Nat) : IsRoundedTo n n := by
  refine ⟨?_, ?_⟩
  · rw [sub_self, abs_zero]
    norm_num
  · intro h
    rw [sub_self, abs_zero] at h
    norm_num at h

/-- Rounding keeps the order. Two numbers in order can only be rounded the other
    way if both are in the middle between two integers, and then they are
    rounded to the same even one. -/
theorem mono (hn : IsRoundedTo n r) (hm : IsRoundedTo m s) (hle : r ≤ s) : n ≤ m := by
  by_contra hc
  have hlt : (m : ℚ) + 1 ≤ n := by exact_mod_cast Nat.lt_of_not_le hc
  have hnr := abs_le.mp hn.half
  have hms := abs_le.mp hm.half
  -- Both are the middle between two neighbours, which cannot both be even.
  have hne : n = m + 1 := by exact_mod_cast (show (n : ℚ) = m + 1 by linarith)
  have hup : |(n : ℚ) - r| = 1 / 2 := by
    rw [show (n : ℚ) - r = 1 / 2 by linarith, abs_of_pos (by norm_num)]
  have hdown : |(m : ℚ) - s| = 1 / 2 := by
    rw [show (m : ℚ) - s = -(1 / 2) by linarith, abs_neg, abs_of_pos (by norm_num)]
  have hneven := hn.even hup
  have hmeven := hm.even hdown
  omega

/-- A distance in units. -/
theorem distance_eq {q u : ℚ} (hu : 0 < u) : |(n : ℚ) - q / u| * u = |q - n * u| := by
  rw [← abs_of_pos hu, ← abs_mul, abs_of_pos hu, sub_mul, div_mul_cancel₀ _ hu.ne', abs_sub_comm]

/-- What is rounded is moved by half a unit at most. -/
theorem distance {q u : ℚ} (hu : 0 < u) (h : IsRoundedTo n (q / u)) : |q - n * u| ≤ u / 2 := by
  have hhalf := mul_le_mul_of_nonneg_right h.half hu.le
  rw [distance_eq hu] at hhalf
  linarith

/-- What is less than half away is rounded to. -/
theorem of_lt (h : |(n : ℚ) - r| < 1 / 2) : IsRoundedTo n r :=
  ⟨h.le, fun heq => absurd heq h.ne⟩

end IsRoundedTo

/-! ### Leading digits -/

namespace HasExponent

variable {q r : ℚ} {e f : Int}

theorem pos (h : HasExponent q e) : 0 < q :=
  lt_of_lt_of_le (by positivity) h.low

/-- A smaller number has no larger exponent. -/
theorem mono (hq : HasExponent q e) (hr : HasExponent r f) (hle : q ≤ r) : e ≤ f := by
  have hlt : (10 : ℚ) ^ e < 10 ^ (f + 1) := lt_of_le_of_lt (hq.low.trans hle) hr.high
  have hexp := (zpow_lt_zpow_iff_right₀ (by norm_num : (1 : ℚ) < 10)).mp hlt
  omega

theorem unique (he : HasExponent q e) (hf : HasExponent q f) : e = f :=
  le_antisymm (he.mono hf (le_refl q)) (hf.mono he (le_refl q))

end HasExponent

/-- From one on, the leading digit of a quotient is that of its integer part,
    and the number of digits of the integer part says what it counts. -/
theorem floorLog10_large (num den : Nat) (hden : 0 < den) (large : den ≤ num) :
    HasExponent (num / den) (floorLog10 num den) := by
  have hden' : (0 : ℚ) < den := by exact_mod_cast hden
  rcases decimalLength_spec (num / den) (Nat.div_pos large hden) with ⟨k, hk, hlow, hhigh⟩
  rw [floorLog10, if_pos large, hk, show ((k + 1 : Nat) : Int) - 1 = k by omega]
  rw [Nat.le_div_iff_mul_le hden] at hlow
  rw [Nat.div_lt_iff_lt_mul hden] at hhigh
  refine ⟨?_, ?_⟩
  · rw [le_div_iff₀ hden', zpow_natCast]
    exact_mod_cast hlow
  · rw [div_lt_iff₀ hden', show (k : Int) + 1 = (k + 1 : Nat) by omega, zpow_natCast]
    exact_mod_cast hhigh

/-- The inverse of a quotient below one, rounded up, is one more than a number
    with as many digits as there are zeros in front of the leading digit. To
    round up and take one away keeps the powers of ten themselves right: the
    inverse of `1 / 1000` has four digits, but there are three zeros. -/
theorem zeros_before (num den : Nat) (hnum : 0 < num) (small : num < den) :
    ∃ k, decimalLength ((den + num - 1) / num - 1) = k + 1 ∧ 10 ^ k * num < den ∧
      den ≤ 10 ^ (k + 1) * num := by
  have hceil : 0 < (den + num - 1) / num - 1 := by
    have htwo : 2 ≤ (den + num - 1) / num := by
      rw [Nat.le_div_iff_mul_le hnum]
      omega
    omega
  have hup := Nat.lt_div_mul_add (a := den + num - 1) hnum
  have hdown := Nat.div_mul_le_self (den + num - 1) num
  rcases decimalLength_spec _ hceil with ⟨k, hk, hlow, hhigh⟩
  refine ⟨k, hk, ?_⟩
  generalize (den + num - 1) / num = c at hceil hup hdown hlow hhigh
  obtain ⟨m, rfl⟩ : ∃ m, c = m + 1 := ⟨c - 1, by omega⟩
  rw [Nat.add_mul, Nat.one_mul] at hup hdown
  rw [Nat.add_sub_cancel] at hlow hhigh
  -- Multiplied by the numerator, both bounds are about the denominator.
  have hbelow := Nat.mul_le_mul_right num hlow
  have habove := Nat.mul_le_mul_right num (Nat.succ_le_of_lt hhigh)
  rw [Nat.succ_mul] at habove
  omega

/-- The exponent of the leading decimal digit of a quotient, by the digits of
    the integer part or by the zeros behind the point. -/
theorem floorLog10_spec (num den : Nat) (hnum : 0 < num) (hden : 0 < den) :
    HasExponent (num / den) (floorLog10 num den) := by
  rcases Nat.lt_or_ge num den with small | large
  · have hnum' : (0 : ℚ) < num := by exact_mod_cast hnum
    have hden' : (0 : ℚ) < den := by exact_mod_cast hden
    rcases zeros_before num den hnum small with ⟨k, hk, hlow, hhigh⟩
    rw [floorLog10, if_neg (Nat.not_le.mpr small), hk]
    refine ⟨?_, ?_⟩
    · rw [zpow_neg, zpow_natCast, inv_le_comm₀ (by positivity) (by positivity), inv_div,
        div_le_iff₀ hnum']
      exact_mod_cast hhigh
    · rw [show -((k + 1 : Nat) : Int) + 1 = -(k : Int) by omega, zpow_neg, zpow_natCast,
        lt_inv_comm₀ (by positivity) (by positivity), inv_div, lt_div_iff₀ hnum']
      exact_mod_cast hlow
  · exact floorLog10_large num den hden large

/-! ### Significant digits -/

section

variable {places : Nat} (positive : 0 < places)

include positive

/-- So many digits are read as a number with the exponent of the first one,
    wherever the last one stands. -/
theorem hasExponent_digits {c : Nat} {e : Int} (low : 10 ^ (places - 1) ≤ c)
    (high : c < 10 ^ places) : HasExponent (c * 10 ^ (e + 1 - places)) e := by
  have hlow : (10 : ℚ) ^ (places - 1) ≤ c := by exact_mod_cast low
  have hhigh : (c : ℚ) < 10 ^ places := by exact_mod_cast high
  refine ⟨?_, ?_⟩
  · calc (10 : ℚ) ^ e = 10 ^ (places - 1) * 10 ^ (e + 1 - places) := by
          rw [← zpow_natCast, ← zpow_add₀ (by norm_num)]
          congr 1
          omega
      _ ≤ c * 10 ^ (e + 1 - places) := mul_le_mul_of_nonneg_right hlow (by positivity)
  · calc (c : ℚ) * 10 ^ (e + 1 - places) < 10 ^ places * 10 ^ (e + 1 - places) :=
          mul_lt_mul_of_pos_right hhigh (by positivity)
      _ = 10 ^ (e + 1) := by
          rw [← zpow_natCast, ← zpow_add₀ (by norm_num)]
          congr 1
          omega

/-- In units of the last digit, a number with an exponent has so many digits. -/
theorem HasExponent.units {q : ℚ} {e : Int} (h : HasExponent q e) :
    ((10 ^ (places - 1) : Nat) : ℚ) ≤ q / 10 ^ (e + 1 - places) ∧
      q / 10 ^ (e + 1 - places) < (10 ^ places : Nat) := by
  have hunit : (0 : ℚ) < 10 ^ (e + 1 - places) := by positivity
  rw [le_div_iff₀ hunit, div_lt_iff₀ hunit]
  push_cast
  rw [← zpow_natCast, ← zpow_natCast, ← zpow_add₀ (by norm_num), ← zpow_add₀ (by norm_num),
    show ((places - 1 : Nat) : Int) + (e + 1 - places) = e by omega,
    show (places : Int) + (e + 1 - places) = e + 1 by omega]
  exact ⟨h.low, h.high⟩

/-- A power of ten as so many units, of its own and of those below it. This is
    why the same power can come out of rounding in two ways, from above and from
    below. -/
theorem power_units (e : Int) :
    ((10 ^ (places - 1) : Nat) : ℚ) * 10 ^ (e + 1 - places) = 10 ^ e ∧
      ((10 ^ places : Nat) : ℚ) * 10 ^ (e - 1 + 1 - places) = 10 ^ e := by
  push_cast
  rw [← zpow_natCast, ← zpow_natCast, ← zpow_add₀ (by norm_num), ← zpow_add₀ (by norm_num)]
  constructor
  · congr 1
    omega
  · congr 1
    omega

/-- A rounded number keeps its exponent, or is the next power of ten. Both
    bounds are integers, so rounding does not go beyond them. -/
theorem IsRoundedTo.digits {q : ℚ} {e : Int} {c : Nat} (leading : HasExponent q e)
    (nearest : IsRoundedTo c (q / 10 ^ (e + 1 - places))) :
    10 ^ (places - 1) ≤ c ∧ c ≤ 10 ^ places := by
  rcases leading.units positive with ⟨hlow, hhigh⟩
  exact ⟨(IsRoundedTo.self _).mono nearest hlow, nearest.mono (IsRoundedTo.self _) hhigh.le⟩

/-- A rounded number does not leave the powers of ten around the number. -/
theorem IsRoundedTo.between {q : ℚ} {e : Int} {c : Nat} (leading : HasExponent q e)
    (nearest : IsRoundedTo c (q / 10 ^ (e + 1 - places))) :
    (10 : ℚ) ^ e ≤ c * 10 ^ (e + 1 - places) ∧ (c : ℚ) * 10 ^ (e + 1 - places) ≤ 10 ^ (e + 1) := by
  rcases nearest.digits positive leading with ⟨hlow, hhigh⟩
  rcases Nat.lt_or_eq_of_le hhigh with hlt | heq
  · have hc := hasExponent_digits positive (e := e) hlow hlt
    exact ⟨hc.low, hc.high.le⟩
  · rw [heq]
    push_cast
    rw [← zpow_natCast, ← zpow_add₀ (by norm_num), show (places : Int) + (e + 1 - places) = e + 1 by
      omega]
    exact ⟨zpow_le_zpow_right₀ (by norm_num) (by omega), le_refl _⟩

namespace IsRounded

variable {q q' r r' : ℚ}

omit positive in
theorem nonneg (h : IsRounded places q r) : 0 ≤ r := by
  cases h with
  | zero => exact le_refl 0
  | digits leading nearest => positivity

omit positive in
theorem source_nonneg (h : IsRounded places q r) : 0 ≤ q := by
  cases h with
  | zero => exact le_refl 0
  | digits leading nearest => exact leading.pos.le

/-- Only zero is rounded to zero. -/
theorem eq_zero_iff (h : IsRounded places q r) : r = 0 ↔ q = 0 := by
  cases h with
  | zero => exact Iff.rfl
  | @digits q e c leading nearest =>
      have hpos : (0 : ℚ) < 10 ^ e := by positivity
      have hle := (nearest.between positive leading).1
      exact iff_of_false (lt_of_lt_of_le hpos hle).ne' leading.pos.ne'

/-- Rounding to significant digits keeps the order. Within one power of ten the
    unit is the same, and it is rounding to an integer. Otherwise there is a
    power of ten between the two numbers, and neither of them is rounded beyond
    it. -/
theorem mono (h : IsRounded places q r) (h' : IsRounded places q' r') (hle : q ≤ q') : r ≤ r' := by
  cases h with
  | zero => exact h'.nonneg
  | @digits q e c leading nearest =>
      cases h' with
      | zero => exact absurd hle (not_le_of_gt leading.pos)
      | @digits q' e' c' leading' nearest' =>
          have hexp := leading.mono leading' hle
          rcases hexp.lt_or_eq with hlt | rfl
          · -- There is a power of ten between the two.
            calc (c : ℚ) * 10 ^ (e + 1 - places) ≤ 10 ^ (e + 1) :=
                  (nearest.between positive leading).2
              _ ≤ 10 ^ e' := zpow_le_zpow_right₀ (by norm_num) (by omega)
              _ ≤ c' * 10 ^ (e' + 1 - places) := (nearest'.between positive leading').1
          · have hunits : c ≤ c' :=
              nearest.mono nearest' (div_le_div_of_nonneg_right hle (by positivity))
            exact mul_le_mul_of_nonneg_right (by exact_mod_cast hunits) (by positivity)

theorem unique (h : IsRounded places q r) (h' : IsRounded places q r') : r = r' :=
  le_antisymm (h.mono positive h' (le_refl q)) (h'.mono positive h (le_refl q))

omit positive in
/-- A number is rounded to a number of units that it is close to. -/
theorem of_units {q : ℚ} {e : Int} {c : Nat} (leading : HasExponent q e)
    (close : |q - c * 10 ^ (e + 1 - places)| ≤ 10 ^ (e + 1 - places) / 4) :
    IsRounded places q (c * 10 ^ (e + 1 - places)) := by
  have hunit : (0 : ℚ) < 10 ^ (e + 1 - places) := by positivity
  refine .digits leading (IsRoundedTo.of_lt ?_)
  rw [← IsRoundedTo.distance_eq hunit] at close
  by_contra hc
  have hhalf := mul_le_mul_of_nonneg_right (not_lt.mp hc) hunit.le
  linarith

/-- A number that is close to a power of ten is rounded to it. Below the power
    the unit is smaller, and the number has to be closer there: a quarter of a
    unit that is a tenth of the other one. -/
theorem of_power {y : ℚ} (e : Int)
    (close : (10 : ℚ) ^ e ≤ y ∧ |y - 10 ^ e| ≤ 10 ^ (e + 1 - places) / 4 ∨
      |y - 10 ^ e| ≤ 10 ^ (e + 1 - places) / 40) : IsRounded places y (10 ^ e) := by
  rcases power_units positive e with ⟨hown, hbelow⟩
  have hpos : (0 : ℚ) < 10 ^ e := by positivity
  have hup : (10 : ℚ) ^ (e + 1) = 10 ^ e * 10 := zpow_add_one₀ (by norm_num) e
  have hdown : (10 : ℚ) ^ e = 10 ^ (e - 1) * 10 := by
    rw [← zpow_add_one₀ (by norm_num), sub_add_cancel]
  have hunit : (10 : ℚ) ^ (e + 1 - places) = 10 ^ (e - 1 + 1 - places) * 10 := by
    rw [← zpow_add_one₀ (by norm_num)]
    congr 1
    omega
  have hle : (10 : ℚ) ^ (e + 1 - places) ≤ 10 ^ e := zpow_le_zpow_right₀ (by norm_num) (by omega)
  -- On either side, the power of ten is a whole number of the units of that
  -- side.
  rcases le_or_gt ((10 : ℚ) ^ e) y with hge | hlt
  · have hclose : |y - 10 ^ e| ≤ 10 ^ (e + 1 - places) / 4 := by
      rcases close with ⟨-, h⟩ | h
      · exact h
      · have hpos : (0 : ℚ) < 10 ^ (e + 1 - places) := by positivity
        linarith
    have habs := abs_le.mp hclose
    rw [← hown] at hclose ⊢
    exact .of_units ⟨hge, by linarith⟩ hclose
  · have hclose : |y - 10 ^ e| ≤ 10 ^ (e - 1 + 1 - places) / 4 := by
      rcases close with ⟨h, -⟩ | h
      · exact absurd h (not_le_of_gt hlt)
      · linarith
    have habs := abs_le.mp hclose
    rw [← hbelow] at hclose ⊢
    exact .of_units ⟨by linarith, by rw [sub_add_cancel]; exact hlt⟩ hclose

/-- A number that is close to so many units is rounded to them. Between the
    powers of ten nothing can happen, because the number has the exponent of
    what it is close to. At either end it may have the exponent below. -/
theorem of_close {y : ℚ} {e : Int} {c : Nat} (low : 10 ^ (places - 1) ≤ c)
    (high : c ≤ 10 ^ places)
    (close : |y - c * 10 ^ (e + 1 - places)| ≤ 10 ^ (e + 1 - places) / 4)
    (first : c = 10 ^ (places - 1) → (c : ℚ) * 10 ^ (e + 1 - places) ≤ y ∨
      |y - c * 10 ^ (e + 1 - places)| ≤ 10 ^ (e + 1 - places) / 40) :
    IsRounded places y (c * 10 ^ (e + 1 - places)) := by
  have hown := (power_units positive e).1
  have hnext := (power_units positive (e + 1)).2
  rw [add_sub_cancel_right] at hnext
  have hunit : (0 : ℚ) < 10 ^ (e + 1 - places) := by positivity
  have habs := abs_le.mp close
  rcases Nat.lt_or_eq_of_le high with hlt | rfl
  · rcases Nat.lt_or_eq_of_le low with hgt | rfl
    · -- Between the powers of ten there is one unit at least on either side.
      have hbelow : ((10 ^ (places - 1) : Nat) : ℚ) + 1 ≤ c := by exact_mod_cast hgt
      have habove : (c : ℚ) + 1 ≤ (10 ^ places : Nat) := by exact_mod_cast hlt
      have hbelow' := mul_le_mul_of_nonneg_right hbelow hunit.le
      have habove' := mul_le_mul_of_nonneg_right habove hunit.le
      rw [add_mul, one_mul, hown] at hbelow'
      rw [add_mul, one_mul, hnext] at habove'
      exact .of_units ⟨by linarith, by linarith⟩ close
    · rw [hown] at close first ⊢
      rcases first rfl with hge | hclose
      · exact .of_power positive e (Or.inl ⟨hge, close⟩)
      · exact .of_power positive e (Or.inr hclose)
  · rw [hnext] at close ⊢
    refine .of_power positive (e + 1) (Or.inr ?_)
    have hten : (10 : ℚ) ^ (e + 1 + 1 - places) = 10 ^ (e + 1 - places) * 10 := by
      rw [← zpow_add_one₀ (by norm_num)]
      congr 1
      omega
    linarith
end IsRounded

namespace Scientific

theorem HasPlaces.exponent {s : Scientific} (h : s.HasPlaces places) :
    HasExponent (s.value places) s.exponent :=
  hasExponent_digits positive h.low h.high

/-- There is one way to write a number with so many digits: the exponent is that
    of the number, and the coefficient is what is left of it. -/
theorem HasPlaces.unique {s t : Scientific} (hs : s.HasPlaces places) (ht : t.HasPlaces places)
    (same : s.value places = t.value places) : s = t := by
  have hse := hs.exponent positive
  rw [same] at hse
  have hexp := hse.unique (ht.exponent positive)
  rcases s with ⟨c, e⟩
  rcases t with ⟨d, f⟩
  obtain rfl : e = f := hexp
  have hunit : (10 : ℚ) ^ (e + 1 - places) ≠ 0 := by positivity
  have hcoefficient : c = d := by
    exact_mod_cast mul_right_cancel₀ hunit same
  rw [hcoefficient]

/-- A quotient is rounded to so many significant digits. If rounding leads to
    the next power of ten, this power is written with as many digits as all
    other numbers, which is why it is replaced. -/
theorem ofRatio_spec (num den : Nat) (hnum : 0 < num) (hden : 0 < den) :
    (ofRatio places num den).HasPlaces places ∧
      IsRounded places (num / den) ((ofRatio places num den).value places) := by
  have leading := floorLog10_spec num den hnum hden
  unfold ofRatio
  simp only []
  generalize floorLog10 num den = e at leading ⊢
  rw [show (places : Int) - 1 - e = -(e + 1 - places) by omega, neg_neg]
  -- The two scaled numbers are the quotient in units of the last digit.
  have hunits : (scaled 10 num (-(e + 1 - places)) : ℚ) / scaled 10 den (e + 1 - places) =
      num / den / 10 ^ (e + 1 - places) := by
    rw [scaled_div 10 num den _ (by decide), zpow_neg, Nat.cast_ofNat, ← div_eq_mul_inv]
  have nearest := IsRoundedTo.of_nearest (roundQuotient_nearest (scaled 10 num (-(e + 1 - places)))
    (scaled 10 den (e + 1 - places)) (scaled_pos 10 den _ (by decide) hden))
  rw [hunits] at nearest
  have rounded := IsRounded.digits leading nearest
  generalize roundQuotient _ _ = c at nearest rounded ⊢
  rcases nearest.digits positive leading with ⟨hlow, hhigh⟩
  by_cases hc : c = Nat.pow 10 places
  · -- The next power of ten, with one digit more in front.
    rw [if_pos hc]
    refine ⟨⟨le_refl _, Nat.pow_lt_pow_right (by decide) (by omega)⟩, ?_⟩
    have hsame : value places ⟨Nat.pow 10 (places - 1), e + 1⟩ = c * 10 ^ (e + 1 - places) := by
      rw [value, hc, Nat.pow_eq, Nat.pow_eq]
      push_cast
      rw [← zpow_natCast, ← zpow_natCast, ← zpow_add₀ (by norm_num), ← zpow_add₀ (by norm_num)]
      congr 1
      omega
    rw [hsame]
    exact rounded
  · rw [if_neg hc]
    exact ⟨⟨hlow, Nat.lt_of_le_of_ne hhigh hc⟩, rounded⟩

end Scientific

end

end RowScope
