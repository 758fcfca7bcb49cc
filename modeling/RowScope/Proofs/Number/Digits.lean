import Mathlib.Data.List.DropRight
import RowScope.Number.Layout
import RowScope.Proofs.Number.Leading

/-!
# Written Digits

A number is written by the characters of its decimal digits, and what they are
read as is said of codes. This is the passage between the two: the digits of a
number are digits, they write the number again, and there are as many of them as
there are powers of ten up to it. Zeros in front do not count, and zeros at the
end count powers of ten; taking them away leaves a digit that is not zero.

## Main definitions

* `charCodes`: The codes of characters.
* `minus`: A minus, or no sign at all.

## Theorems

* `number_toDigits`: The digits of a number write it.
* `decimalLength_spec`: A number has as many digits as there are powers of ten
  up to it.
* `trimmed_spec`: What is left of digits without the zeros at their end.
* `ofInt_codes`: The text of an integer.
-/

namespace RowScope

open Grammar

/-- The codes of characters. -/
def charCodes (cs : List Char) : List Nat := cs.map Char.toNat

/-- A minus, or no sign at all. -/
def minus (negative : Bool) : List Nat := if negative then [45] else []

theorem minus_sign (negative : Bool) : Sign (minus negative) negative := by
  cases negative with
  | false => exact Sign.none
  | true => exact Sign.minus

@[simp]
theorem charCodes_nil : charCodes [] = [] := rfl

@[simp]
theorem charCodes_cons (c : Char) (cs : List Char) :
    charCodes (c :: cs) = c.toNat :: charCodes cs := rfl

@[simp]
theorem charCodes_append (a b : List Char) : charCodes (a ++ b) = charCodes a ++ charCodes b :=
  List.map_append

@[simp]
theorem charCodes_zeros (k : Nat) : charCodes (List.replicate k '0') = List.replicate k 48 :=
  List.map_replicate

@[simp]
theorem charCodes_length (cs : List Char) : (charCodes cs).length = cs.length :=
  List.length_map Char.toNat

theorem codes_ofChars (cs : List Char) : (Text.ofChars cs).codes = charCodes cs := by
  rw [Text.ofChars, Text.codes, charCodes, List.map_map]
  rfl

/-! ### Reading what is written -/

theorem number_codes (cs : List Char) : number (charCodes cs) = Nat.ofDigitChars 10 cs 0 := by
  rw [← Scan.value_digits, Scan.value, charCodes, List.map_map, List.foldl_map,
    Nat.ofDigitChars_eq_foldl]
  congr 1
  funext n c
  rw [Nat.mul_comm]
  rfl

theorem number_zeros (k : Nat) : number (List.replicate k 48) = 0 := by
  rw [number, List.reverse_replicate, List.map_replicate]
  exact Nat.ofDigits_replicate_zero

/-- Zeros in front do not count. -/
theorem number_zeros_append (k : Nat) (ds : List Nat) :
    number (List.replicate k 48 ++ ds) = number ds := by
  rw [number_append, number_zeros, Nat.zero_mul, Nat.zero_add]

/-- Zeros at the end count powers of ten. -/
theorem number_append_zeros (ds : List Nat) (k : Nat) :
    number (ds ++ List.replicate k 48) = number ds * 10 ^ k := by
  rw [number_append, number_zeros, List.length_replicate, Nat.add_zero]

theorem isDigit_of_char (c : Char) (h : c.isDigit = true) : IsDigit c.toNat := by
  simp only [Char.isDigit, Bool.and_eq_true, decide_eq_true_eq, UInt32.le_iff_toNat_le] at h
  exact h

theorem isDigits_toDigits (n : Nat) : IsDigits (charCodes (Nat.toDigits 10 n)) := by
  refine ⟨fun h => Nat.toDigits_ne_nil (List.map_eq_nil_iff.mp h), ?_⟩
  intro d hd
  rcases List.mem_map.mp hd with ⟨c, hc, rfl⟩
  exact isDigit_of_char c (Nat.isDigit_of_mem_toDigits (by decide) (by decide) hc)

/-- The digits of a number write it. -/
theorem number_toDigits (n : Nat) : number (charCodes (Nat.toDigits 10 n)) = n := by
  rw [number_codes]
  exact Nat.ofDigitChars_ten_toDigits

/-- The text of an integer: a minus if it is negative, and its digits. All that
    is said of written numbers is said of codes, and this is where the integers
    come in. -/
theorem ofInt_codes (n : Int) :
    (Text.ofInt n).codes = minus (n < 0) ++ charCodes (Nat.toDigits 10 n.natAbs) := by
  cases n with
  | ofNat n =>
      have hsign : decide (Int.ofNat n < 0) = false :=
        decide_eq_false (Int.not_lt.mpr (Int.natCast_nonneg n))
      rw [hsign]
      exact codes_ofChars _
  | negSucc n =>
      rw [decide_eq_true (Int.negSucc_lt_zero n)]
      exact codes_ofChars ('-' :: Nat.toDigits 10 (n + 1))

/-- An integer is its sign and its magnitude. -/
theorem sign_natAbs (n : Int) : (if decide (n < 0) then -(n.natAbs : Int) else n.natAbs) = n := by
  by_cases h : n < 0
  · rw [if_pos (decide_eq_true h)]
    omega
  · rw [if_neg (by rw [decide_eq_true_eq]; exact h)]
    omega

/-! ### How many digits there are -/

/-- A number has as many digits as there are powers of ten up to it. Zero is
    left out: it has one digit, but no power of ten. -/
theorem decimalLength_spec (n : Nat) (hn : 0 < n) :
    ∃ k, decimalLength n = k + 1 ∧ 10 ^ k ≤ n ∧ n < 10 ^ (k + 1) := by
  have hpos : 0 < decimalLength n := Nat.length_toDigits_pos
  obtain ⟨k, hk⟩ : ∃ k, decimalLength n = k + 1 := ⟨decimalLength n - 1, by omega⟩
  have hhigh : n < 10 ^ (k + 1) := by
    rw [← Nat.length_toDigits_le_iff (by decide) (Nat.succ_pos k)]
    exact hk.le
  refine ⟨k, hk, ?_, hhigh⟩
  rcases Nat.eq_zero_or_pos k with rfl | hkpos
  · exact hn
  · by_contra hc
    have hle := (Nat.length_toDigits_le_iff (by decide) hkpos).mpr (Nat.lt_of_not_le hc)
    unfold decimalLength at hk
    omega

/-- What is left of the digits of a number without the zeros at their end. The
    number is positive, so something is left, and what is left ends in another
    digit. -/
theorem Scientific.trimmed_spec (s : Scientific) (positive : 0 < s.coefficient) :
    ∃ k, Nat.toDigits 10 s.coefficient = s.trimmed ++ List.replicate k '0' ∧
      s.trimmed ≠ [] ∧ s.trimmed.getLast? ≠ some '0' := by
  generalize hkept : (Nat.toDigits 10 s.coefficient).rdropWhile (· == '0') = kept
  generalize hzeros : (Nat.toDigits 10 s.coefficient).rtakeWhile (· == '0') = zeros
  have hsplit : Nat.toDigits 10 s.coefficient = kept ++ zeros := by
    rw [← hkept, ← hzeros]
    exact List.rdropWhile_append_rtakeWhile.symm
  have hreplicate : zeros = List.replicate zeros.length '0' := by
    rw [List.eq_replicate_iff]
    refine ⟨rfl, fun c hc => ?_⟩
    rw [← hzeros] at hc
    exact beq_iff_eq.mp (List.mem_rtakeWhile_imp (p := (· == '0')) hc)
  -- Zeros alone would write zero.
  have hne : kept ≠ [] := by
    intro hnil
    have hnumber := number_toDigits s.coefficient
    rw [hsplit, hnil, List.nil_append, hreplicate, charCodes_zeros, number_zeros] at hnumber
    omega
  have htrimmed : s.trimmed = kept := by
    rw [List.rdropWhile] at hkept
    unfold trimmed
    simp only [hkept]
  refine ⟨zeros.length, ?_, ?_, ?_⟩
  · rw [htrimmed, ← hreplicate]
    exact hsplit
  · rw [htrimmed]
    exact hne
  · rw [htrimmed, List.getLast?_eq_some_getLast hne, ne_eq, Option.some.injEq]
    intro hlast
    subst hkept
    exact List.rdropWhile_last_not _ _ hne (beq_iff_eq.mpr hlast)

end RowScope
