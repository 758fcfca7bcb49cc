import RowScope.Proofs.Cell.Leading
import RowScope.Proofs.Cell.Truncation
import RowScope.Proofs.Column.Content
import RowScope.Proofs.Number.Integers
import RowScope.Proofs.Number.Numerals
import RowScope.Proofs.Number.Rendering
import RowScope.Proofs.Number.Spacing

/-!
# Numbers Read Back from Their Text

A number that is written as text and read again is what it was, as far as the
text tells. The text of an integer of 64 bits tells all of it, so the same
integer is read, from the text as well as from its bytes; and as a real the text
is read like the integer itself, since both are rounded to the double that is
nearest to the same number. The text of a real has fifteen digits only, so
another double may be read. But its text is the same again: what was written has
a double so near that rounding finds it, unless it lies beyond all doubles.

What is read of a text is the longest number that it starts with. A text that is
a number as a whole is that number itself, so nothing has to be said of the
scanner here.

## Theorems

* `whole?_self`: A text that is a whole number is read as this number.
* `textToDouble_self`: A text that is a decimal number is read as the nearest
  double.
* `integer_reread`: An integer is read back from its text and from its bytes.
* `real_reread`: The text of a real is the text of the double that is read from
  it.
-/

namespace RowScope

open Grammar

/-! ### Texts that are numbers -/

/-- A text that is a whole number is read as this number, since nothing at its
    head can be longer than all of it. -/
theorem whole?_self (t : Text) (negative : Bool) (ds : List Nat)
    (h : WholeNumber t.codes negative ds) : Scan.whole? t = some ⟨negative, ds.map (· - 48)⟩ :=
  Scan.whole?_longest t t.codes ds negative (Longest.self ⟨negative, ds, h⟩) h

/-- A text that is a decimal number is read as the double nearest to this
    number. -/
theorem textToDouble_self (t : Text) (negative : Bool) (q : ℚ)
    (h : DecimalNumber t.codes negative q) : (textToDouble t).IsNearest negative q := by
  rcases Scan.decimal?_longest t t.codes negative q (Longest.self ⟨negative, q, h⟩) h with
    ⟨d, hd, rfl, hq⟩
  rw [textToDouble, hd]
  exact Cell.toBinary64_nearest d q hq

namespace Cell

/-! ### Integers -/

/-- The text of an integer is a whole number, and a decimal one of the same
    magnitude and sign. -/
theorem ofInt_number (n : Int) :
    WholeNumber (Text.ofInt n).codes (n < 0) (charCodes (Nat.toDigits 10 n.natAbs)) ∧
      DecimalNumber (Text.ofInt n).codes (n < 0) n.natAbs := by
  have blank : ∀ b ∈ ([] : List Nat), IsBlank b := fun b hb => absurd hb List.not_mem_nil
  have digits := isDigits_toDigits n.natAbs
  rw [ofInt_codes]
  refine ⟨.mk blank (minus_sign _) digits, ?_⟩
  have hnumber := DecimalNumber.mk blank (minus_sign (n < 0)) (.whole digits) .none
  rw [List.append_nil, number_toDigits, number, List.reverse_nil, List.map_nil, Nat.ofDigits_nil,
    Nat.cast_zero, zero_div, add_zero, zpow_zero, mul_one] at hnumber
  exact hnumber

/-- The text of an integer of 64 bits is read as the integer. Its digits are
    fewer than the scanner's limit, and its value is within the range, so
    neither the limit nor the clamping is felt. -/
theorem textToInt64_ofInt (n : Int) (lower : minInt64 ≤ n) (upper : n ≤ maxInt64) :
    textToInt64 (Text.ofInt n) = .ok n := by
  have hlength : ((charCodes (Nat.toDigits 10 n.natAbs)).map (· - 48)).length ≤ digitLimit := by
    rw [List.length_map, charCodes_length]
    exact decimalLength_of_bounds n lower upper
  have hvalue :
      Scan.Whole.toInt ⟨n < 0, (charCodes (Nat.toDigits 10 n.natAbs)).map (· - 48)⟩ = n := by
    rw [Scan.Whole.toInt, Scan.value_digits, number_toDigits]
    exact sign_natAbs n
  rw [textToInt64, whole?_self _ _ _ (ofInt_number n).1]
  simp only [hlength, if_true, hvalue, clamp64_self n lower upper]

/-- How an integer of 64 bits is read back. -/
structure IsReread (n : Int) (t : Text) (bytes : Bytes) : Prop where
  written : (integer n).text? = .ok (some t)
  spelled : (integer n).bytes? = .ok (some bytes)
  fromText : (text t).int64 = .ok n
  fromBytes : (blob bytes).int64 = .ok n
  /-- As a real, the text is read like the integer, as the double nearest to
      it. -/
  asReal : ∃ x, (text t).double = .ok x ∧ (integer n).double = .ok x ∧
    x.IsNearest (n < 0) n.natAbs

/-- An integer of 64 bits is read back from its text and from its bytes. The
    text is ASCII, so the bytes decode to it, and a blob of these bytes is read
    like the text. As a real the text is no more exact than the integer: both
    are rounded to the double nearest to the same number. -/
theorem integer_reread (n : Int) (lower : -2 ^ 63 ≤ n) (upper : n ≤ 2 ^ 63 - 1) :
    ∃ t bytes, IsReread n t bytes := by
  have htext := integerText_of_bounds n lower upper
  rcases Text.decode_encode_ascii _ (Text.ofInt_isAscii n) with ⟨bytes, hencode, hdecode, -⟩
  have hread := textToInt64_ofInt n lower upper
  -- The integer is rounded as a ratio over one.
  have hnearest : (Binary64.ofInt n).IsNearest (n < 0) n.natAbs := by
    have h := Binary64.ofRatio_nearest (n < 0) n.natAbs 1 Nat.one_pos
    rw [Nat.cast_one, div_one] at h
    exact h
  refine ⟨Text.ofInt n, bytes, ?_, ?_, hread, ?_, Binary64.ofInt n, ?_, ?_, hnearest⟩
  · rw [text?, htext]
    rfl
  · show (do return some (← encoded (← integerText n)) : Except CellFault (Option Bytes)) = _
    rw [htext]
    show (do return some (← encoded (Text.ofInt n)) : Except CellFault (Option Bytes)) = _
    rw [encoded_eq_ok hencode]
    rfl
  · rw [int64, hdecode]
    exact hread
  · have hreal := (textToDouble_self _ _ _ (ofInt_number n).2).unique hnearest
    rw [double, hreal]
  · exact doubleOfInt_of_bounds n lower upper

/-- The smallest integer of 64 bits is read back. -/
theorem integer_reread_smallest :
    (-2 ^ 63 : Int) ≤ -2 ^ 63 ∧ (-2 ^ 63 : Int) ≤ 2 ^ 63 - 1 ∧
      ∃ t bytes, IsReread (-2 ^ 63) t bytes :=
  ⟨by decide, by decide, integer_reread (-2 ^ 63) (by decide) (by decide)⟩

/-! ### Reals -/

/-- The text of a finite double is the text of the double that is read from it,
    unless this one is infinite. What is read is the double nearest to the
    fifteen digits, and need not be the one that was written. But doubles are so
    dense that it rounds to the same fifteen digits, and it is from these that
    the text is made. Near the largest double there may be no finite one left to
    be read. -/
theorem real_reread (x : Binary64) (finite : x.isFinite = true) :
    ∃ t y, (real x).text? = .ok (some t) ∧ (text t).double = .ok y ∧ y.isNaN = false ∧
      y.negative = x.negative ∧ (y.isFinite = true → (real y).text? = .ok (some t)) := by
  rcases x.text_denotes finite with ⟨r, number, rounded⟩
  have nearest := textToDouble_self x.text x.negative r number
  refine ⟨x.text, textToDouble x.text, rfl, rfl, nearest.number, nearest.sign, ?_⟩
  intro hy
  -- The double that is read rounds to the digits that were written.
  have hagain := nearest.rounded_again finite hy rounded
  rw [text?, Binary64.text_congr _ x hy finite nearest.sign hagain rounded]

/-- The smallest double is read back, although it has one digit only. -/
theorem real_reread_smallest :
    (Binary64.ofBits 1).isFinite = true ∧
      ∃ t y, (real (Binary64.ofBits 1)).text? = .ok (some t) ∧ (text t).double = .ok y ∧
        y.isNaN = false ∧ y.negative = (Binary64.ofBits 1).negative ∧
        (y.isFinite = true → (real y).text? = .ok (some t)) := by
  have finite : (Binary64.ofBits 1).isFinite = true := by decide
  exact ⟨finite, real_reread (Binary64.ofBits 1) finite⟩

end Cell

end RowScope
