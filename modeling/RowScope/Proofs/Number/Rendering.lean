import RowScope.Number.RealText
import RowScope.Proofs.Number.Significant
import RowScope.Proofs.Number.Value

/-!
# What a Real Is Written As

The text of a real is taken apart into the digits before the point, those behind
it and the exponent, and each layout is one such form with one value. The
layouts differ in where the point stands and in how many zeros are put in, and
neither changes the number: the digits in front of a point and behind it are
read as one number, and the place of the point is a power of ten. So only one
equation is shown for each layout, and which layout is taken decides nothing but
the form.

The value is the double rounded to fifteen digits. Rounding may lead to the next
power of ten, and it is the exponent after rounding that decides between the
forms; hence the form is said here of the number that is written and not of the
one that is rounded.

A text denotes one number at most, so what is true of the number that was
written is true of what the text denotes, whoever reads it. The order of doubles
is that of their texts because rounding keeps the order, on both sides of zero.

## Main definitions

* `Grammar.Pointed`, `Grammar.pointedValue`: Digits around a point, and the
  number they denote.
* `Layout.LaidOut`: Digits that are laid out around a point.
* `Binary64.Written`: What the magnitude of a finite double is written as.
* `Text.Denotes`: The rational number that a text denotes.
* `Binary64.IsRendered`: How a finite double is written as text.

## Theorems

* `Grammar.Pointed.denotes`: Digits around a point are a decimal number.
* `Layout.render_laidOut`: Every layout keeps the number, and small and large
  exponents are marked.
* `Binary64.magnitudeText_written`: The magnitude is rounded to fifteen digits
  and laid out.
* `Binary64.text_congr`: Doubles that are rounded to the same number have the
  same text.
* `Binary64.text_rendered`: A finite double is written as its rounded magnitude
  behind its sign.
-/

namespace RowScope

namespace Grammar

/-- Digits on both sides of a point, and perhaps an exponent with a sign and two
    digits at least. -/
inductive Pointed : List Nat → List Nat → List Nat → Option Int → Prop
  | plain {whole fraction : List Nat} (left : IsDigits whole) (right : IsDigits fraction) :
      Pointed (whole ++ 46 :: fraction) whole fraction none
  | marked {whole fraction ds : List Nat} (negative : Bool) (left : IsDigits whole)
      (right : IsDigits fraction) (exponent : IsDigits ds) (wide : 2 ≤ ds.length) :
      Pointed (whole ++ 46 :: (fraction ++ 101 :: (if negative then 45 else 43) :: ds)) whole
        fraction (some (if negative then -(number ds : Int) else number ds))

/-- The number that digits on both sides of a point and an exponent denote. -/
def pointedValue (whole fraction : List Nat) (mark : Option Int) : ℚ :=
  (number whole + number fraction / 10 ^ fraction.length) * 10 ^ mark.getD 0

/-- These are decimal numbers, in the sense in which texts are read as numbers.
    A sign in front does not matter for the form, so it is the sign of the
    number. -/
theorem Pointed.denotes {codes whole fraction : List Nat} {mark : Option Int}
    (h : Pointed codes whole fraction mark) (negative : Bool) :
    DecimalNumber (minus negative ++ codes) negative (pointedValue whole fraction mark) := by
  have blank : ∀ b ∈ ([] : List Nat), IsBlank b := fun b hb => absurd hb List.not_mem_nil
  cases h with
  | plain left right =>
      have hnumber := DecimalNumber.mk blank (minus_sign negative) (.pointed left right.2) .none
      rw [List.append_nil] at hnumber
      exact hnumber
  | @marked whole fraction ds below left right exponent wide =>
      have hsign : Sign [if below then 45 else 43] below := by
        cases below with
        | false => exact Sign.plus
        | true => exact Sign.minus
      have hnumber := DecimalNumber.mk blank (minus_sign negative) (.pointed left right.2)
        (.marked (Or.inl rfl) hsign exponent)
      rw [List.append_assoc] at hnumber
      exact hnumber

/-- The digits before and behind the point are read as one number. This is the
    equation that makes the place of the point a power of ten, and all layouts
    are compared by it. -/
theorem pointedValue_eq (whole fraction : List Nat) (mark : Option Int) :
    pointedValue whole fraction mark =
      number (whole ++ fraction) * 10 ^ (mark.getD 0 - fraction.length) := by
  rw [pointedValue, number_append, zpow_sub₀ (by norm_num), zpow_natCast]
  push_cast
  field_simp

end Grammar

open Grammar

namespace Layout

/-- Digits are laid out, the first of which counts powers of ten to an
    exponent. -/
structure LaidOut (ds : List Nat) (e : Int) (codes whole fraction : List Nat) (mark : Option Int) :
    Prop where
  form : Pointed codes whole fraction mark
  value : pointedValue whole fraction mark = number ds * 10 ^ (e + 1 - ds.length)
  last : fraction = [48] ∨ fraction.getLast? = ds.getLast?

theorem isDigits_zero : IsDigits [48] := ⟨List.cons_ne_nil _ _, by decide⟩

theorem isDigit_zeros (k : Nat) : ∀ d ∈ List.replicate k 48, IsDigit d := by
  intro d hd
  rw [List.eq_of_mem_replicate hd]
  decide

theorem isDigits_append_zeros {ds : List Nat} (h : IsDigits ds) (k : Nat) :
    IsDigits (ds ++ List.replicate k 48) := by
  refine ⟨List.append_ne_nil_of_left_ne_nil h.1 _, fun d hd => ?_⟩
  rcases List.mem_append.mp hd with hd | hd
  · exact h.2 d hd
  · exact isDigit_zeros k d hd

theorem isDigits_zeros_append {ds : List Nat} (h : IsDigits ds) (k : Nat) :
    IsDigits (List.replicate k 48 ++ ds) := by
  refine ⟨List.append_ne_nil_of_right_ne_nil _ h.1, fun d hd => ?_⟩
  rcases List.mem_append.mp hd with hd | hd
  · exact isDigit_zeros k d hd
  · exact h.2 d hd

variable (ds : List Char) (digits : IsDigits (charCodes ds)) (e : Int)

include digits

/-- Below one, the digits follow zeros. There is one zero before the point and
    one less than the negated exponent behind it. -/
theorem plain_small (he : e < 0) :
    ∃ fraction, LaidOut (charCodes ds) e (charCodes (plain ds e)) [48] fraction none := by
  refine ⟨List.replicate (-e - 1).toNat 48 ++ charCodes ds, ?_, ?_, ?_⟩
  · rw [plain, if_pos he, charCodes_cons, charCodes_cons, charCodes_append, charCodes_zeros]
    exact .plain isDigits_zero (isDigits_zeros_append digits _)
  · have hzeros := number_zeros_append ((-e - 1).toNat + 1) (charCodes ds)
    rw [List.replicate_succ, List.cons_append] at hzeros
    rw [pointedValue_eq, List.singleton_append, hzeros, List.length_append, List.length_replicate]
    congr 2
    simp only [Option.getD_none]
    push_cast
    omega
  · right
    exact List.getLast?_append_of_ne_nil _ digits.1

/-- With few digits, all of them stand before the point and zeros follow. -/
theorem plain_whole (he : 0 ≤ e) (few : ds.length ≤ e.toNat + 1) :
    ∃ whole, LaidOut (charCodes ds) e (charCodes (plain ds e)) whole [48] none := by
  have hlength : (charCodes ds).length = ds.length := charCodes_length ds
  rw [plain, if_neg (Int.not_lt.mpr he)]
  simp only []
  rw [List.take_of_length_le few, List.drop_of_length_le few]
  refine ⟨charCodes ds ++ List.replicate (e.toNat + 1 - ds.length) 48, ?_, ?_, Or.inl rfl⟩
  · rw [charCodes_append, charCodes_append, charCodes_zeros]
    exact .plain (isDigits_append_zeros digits _) isDigits_zero
  · -- One of the zeros is the digit behind the point.
    have hzeros := number_append_zeros (charCodes ds) (e.toNat + 1 - ds.length + 1)
    rw [List.replicate_succ', ← List.append_assoc] at hzeros
    rw [pointedValue_eq, hzeros]
    push_cast
    rw [mul_assoc, ← zpow_natCast, ← zpow_add₀ (by norm_num)]
    congr 2
    simp only [Option.getD_none, List.length_singleton]
    push_cast
    omega

/-- With more digits than the exponent asks for, they stand on both sides of the
    point. No zero is put in, so the last digit stays the last one. -/
theorem plain_divided (he : 0 ≤ e) (many : e.toNat + 1 < ds.length) :
    ∃ whole fraction, LaidOut (charCodes ds) e (charCodes (plain ds e)) whole fraction none := by
  have hlength : (charCodes ds).length = ds.length := charCodes_length ds
  have htake : (ds.take (e.toNat + 1)).length = e.toNat + 1 := List.length_take_of_le many.le
  -- There are digits left for the fraction, so none is put in.
  have hfraction : fraction (ds.drop (e.toNat + 1)) = ds.drop (e.toNat + 1) := by
    rcases hdrop : ds.drop (e.toNat + 1) with _ | ⟨d, rest⟩
    · exact absurd (List.drop_eq_nil_iff.mp hdrop) (Nat.not_le.mpr many)
    · rfl
  have hdropped : charCodes (ds.drop (e.toNat + 1)) = (charCodes ds).drop (e.toNat + 1) :=
    List.map_drop
  have htaken : charCodes (ds.take (e.toNat + 1)) = (charCodes ds).take (e.toNat + 1) :=
    List.map_take
  rw [plain, if_neg (Int.not_lt.mpr he)]
  simp only []
  rw [htake, Nat.sub_self, List.replicate_zero, List.append_nil, hfraction, charCodes_append,
    charCodes_cons, hdropped, htaken]
  refine ⟨_, _, .plain ⟨?_, ?_⟩ ⟨?_, ?_⟩, ?_, Or.inr ?_⟩
  · -- Neither side is empty, and all are digits.
    rw [← List.length_pos_iff, List.length_take]
    omega
  · exact fun d hd => digits.2 d (List.mem_of_mem_take hd)
  · rw [← List.length_pos_iff, List.length_drop]
    omega
  · exact fun d hd => digits.2 d (List.mem_of_mem_drop hd)
  · -- Side by side they are the digits again.
    rw [pointedValue_eq, List.take_append_drop, List.length_drop, hlength]
    congr 2
    simp only [Option.getD_none]
    omega
  · rw [List.getLast?_drop, if_neg (by omega)]

/-- From one on, the digits stand on both sides of the point, or before it and
    followed by zeros. -/
theorem plain_large (he : 0 ≤ e) :
    ∃ whole fraction, LaidOut (charCodes ds) e (charCodes (plain ds e)) whole fraction none := by
  rcases Nat.lt_or_ge (e.toNat + 1) ds.length with many | few
  · exact plain_divided ds digits e he many
  · rcases plain_whole ds digits e he few with ⟨whole, h⟩
    exact ⟨whole, [48], h⟩

omit digits in
/-- The mark of an exponent, its sign, and two digits of it at least. Read with
    the sign, the digits are the exponent that was written. -/
theorem exponentMark_codes : ∃ ds, IsDigits ds ∧ 2 ≤ ds.length ∧
    (if decide (e < 0) then -(number ds : Int) else number ds) = e ∧
    charCodes (exponentMark e) = 101 :: (if decide (e < 0) then 45 else 43) :: ds := by
  have hdigits := isDigits_toDigits e.natAbs
  have hnumber := number_toDigits e.natAbs
  have hlength := charCodes_length (Nat.toDigits 10 e.natAbs)
  have hpos := List.length_pos_iff.mpr hdigits.1
  have hsign : (if e < 0 then '-' else '+').toNat = if decide (e < 0) then 45 else 43 := by
    by_cases h : e < 0
    · rw [if_pos h, if_pos (decide_eq_true h)]
      rfl
    · rw [if_neg h, if_neg (by rw [decide_eq_true_eq]; exact h)]
      rfl
  by_cases hshort : (Nat.toDigits 10 e.natAbs).length < 2
  · -- A zero is put in front.
    refine ⟨[48] ++ charCodes (Nat.toDigits 10 e.natAbs), isDigits_zeros_append hdigits 1,
      ?_, ?_, ?_⟩
    · rw [List.length_append, List.length_singleton]
      omega
    · have hzeros := number_zeros_append 1 (charCodes (Nat.toDigits 10 e.natAbs))
      rw [List.replicate_one] at hzeros
      rw [hzeros, hnumber]
      exact sign_natAbs e
    · rw [exponentMark]
      simp only [if_pos hshort, charCodes_cons, hsign]
      rfl
  · refine ⟨charCodes (Nat.toDigits 10 e.natAbs), hdigits, by omega, ?_, ?_⟩
    · rw [hnumber]
      exact sign_natAbs e
    · rw [exponentMark]
      simp only [if_neg hshort, charCodes_cons, hsign]
      rfl

omit digits in
/-- Before the mark of an exponent stands a number with a point. -/
theorem marked_form {whole fraction : List Nat} (left : IsDigits whole)
    (right : IsDigits fraction) :
    Pointed (whole ++ 46 :: (fraction ++ charCodes (exponentMark e))) whole fraction (some e) := by
  rcases exponentMark_codes e with ⟨xs, exponent, wide, hvalue, hcodes⟩
  have hform := Pointed.marked (decide (e < 0)) left right exponent wide
  rw [hvalue] at hform
  rw [hcodes]
  exact hform

/-- With an exponent, one digit stands before the point. The others stand behind
    it, or a zero if there are no others, which changes neither the number nor
    its exponent. -/
theorem withExponent_laidOut : ∃ d fraction,
    LaidOut (charCodes ds) e (charCodes (realLayout.withExponent ds e)) [d] fraction (some e) := by
  rcases ds with _ | ⟨d, rest⟩
  · exact absurd rfl digits.1
  · have hd : IsDigits [d.toNat] := by
      refine ⟨List.cons_ne_nil _ _, fun n hn => ?_⟩
      rw [List.mem_singleton.mp hn]
      exact digits.2 _ List.mem_cons_self
    rcases rest with _ | ⟨c, rest⟩
    · -- A zero is put behind the point.
      refine ⟨d.toNat, [48], ?_, ?_, Or.inl rfl⟩
      · rw [withExponent, charCodes_cons, charCodes_append]
        exact marked_form e hd isDigits_zero
      · have hzeros := number_append_zeros [d.toNat] 1
        rw [List.replicate_one] at hzeros
        rw [pointedValue_eq, hzeros]
        push_cast
        rw [mul_assoc, ← zpow_one_add₀ (by norm_num)]
        congr 2
        simp only [Option.getD_some, charCodes_cons, charCodes_nil, List.length_singleton]
        omega
    · have hrest : IsDigits (charCodes (c :: rest)) :=
        ⟨List.cons_ne_nil _ _, fun n hn => digits.2 n (List.mem_cons_of_mem _ hn)⟩
      refine ⟨d.toNat, charCodes (c :: rest), ?_, ?_, Or.inr ?_⟩
      · rw [withExponent, charCodes_cons, charCodes_cons, charCodes_append]
        · exact marked_form e hd hrest
        · exact List.cons_ne_nil _ _
      · rw [pointedValue_eq, List.singleton_append, charCodes_cons d]
        congr 2
        simp only [Option.getD_some, List.length_cons]
        push_cast
        omega
      · rw [charCodes_cons d, charCodes_cons c, List.getLast?_cons_cons]

/-- Digits are laid out positionally unless the first of them counts too small
    or too large a power of ten. Whichever layout it is, the number is the one
    that the digits and the exponent are. -/
theorem render_laidOut : ∃ whole fraction mark,
    LaidOut (charCodes ds) e (charCodes (realLayout.render ds e)) whole fraction mark ∧
      (mark.isSome = true ↔ e < -4 ∨ 15 ≤ e) ∧ (mark.isSome = true → whole.length = 1) := by
  unfold render
  by_cases hplain : realLayout.plainFrom ≤ e ∧ e < realLayout.plainBelow
  · rw [if_pos hplain]
    have hlow : -4 ≤ e := hplain.1
    have hhigh : e < 15 := hplain.2
    have hmark : (none : Option Int).isSome = true ↔ e < -4 ∨ 15 ≤ e := by
      rw [Option.isSome_none]
      constructor
      · exact fun h => nomatch h
      · omega
    -- The two positional layouts differ only in where the zeros are.
    rcases lt_or_ge e 0 with he | he
    · rcases plain_small ds digits e he with ⟨fraction, h⟩
      exact ⟨_, _, _, h, hmark, fun h => nomatch h⟩
    · rcases plain_large ds digits e he with ⟨whole, fraction, h⟩
      exact ⟨_, _, _, h, hmark, fun h => nomatch h⟩
  · rw [if_neg hplain]
    rcases withExponent_laidOut ds digits e with ⟨d, fraction, h⟩
    refine ⟨_, _, _, h, ?_, fun _ => rfl⟩
    rw [Option.isSome_some]
    refine ⟨fun _ => ?_, fun _ => rfl⟩
    have hnot : ¬ (-4 ≤ e ∧ e < 15) := hplain
    omega

end Layout

/-! ### The text of a double -/

/-- The digits that are laid out are those of the coefficient, without the zeros
    at their end. Leaving out a zero makes the number of digits smaller and the
    power of ten larger, so the number is the same, and the last digit is not a
    zero. -/
theorem Scientific.trimmed_digits (s : Scientific) (places : Nat) (positive : 0 < places)
    (h : s.HasPlaces places) : IsDigits (charCodes s.trimmed) ∧
      (number (charCodes s.trimmed) : ℚ) * 10 ^ (s.exponent + 1 - s.trimmed.length) =
        s.value places ∧
      (charCodes s.trimmed).getLast? ≠ some 48 := by
  have hcoefficient : 0 < s.coefficient := lt_of_lt_of_le (by positivity) h.low
  rcases s.trimmed_spec hcoefficient with ⟨k, hdigits, hne, hlast⟩
  -- What is left out are zeros, and only at the end.
  have hcodes : charCodes (Nat.toDigits 10 s.coefficient) =
      charCodes s.trimmed ++ List.replicate k 48 := by
    rw [hdigits, charCodes_append, charCodes_zeros]
  refine ⟨⟨?_, ?_⟩, ?_, ?_⟩
  · exact fun hnil => hne (List.map_eq_nil_iff.mp hnil)
  · intro d hd
    refine (isDigits_toDigits s.coefficient).2 d ?_
    rw [hcodes]
    exact List.mem_append_left _ hd
  · have hnumber := number_toDigits s.coefficient
    rw [hcodes, number_append_zeros] at hnumber
    -- There are as many digits as places, those that are left and the zeros.
    have hlength : s.trimmed.length + k = places := by
      rcases decimalLength_spec s.coefficient hcoefficient with ⟨j, hj, hlow, hhigh⟩
      rw [decimalLength, hdigits, List.length_append, List.length_replicate] at hj
      have hup := (Nat.pow_lt_pow_iff_right (by decide)).mp (lt_of_le_of_lt hlow h.high)
      have hdown := (Nat.pow_lt_pow_iff_right (by decide)).mp (lt_of_le_of_lt h.low hhigh)
      omega
    rw [Scientific.value, ← hnumber]
    push_cast
    rw [mul_assoc, ← zpow_natCast, ← zpow_add₀ (by norm_num)]
    congr 2
    omega
  · intro hc
    rw [charCodes, List.getLast?_map, Option.map_eq_some_iff] at hc
    rcases hc with ⟨c, hc, hcode⟩
    rw [hc, show c = '0' from Char.toNat_inj.mp hcode] at hlast
    exact hlast rfl

namespace Binary64

/-- The digits that are laid out are those of the rounded magnitude. -/
theorem digits_rounded (x : Binary64) (nonzero : x.isZero = false) :
    (Scientific.ofRatio realPlaces x.ratio.1 x.ratio.2).HasPlaces realPlaces ∧
      IsRounded 15 x.magnitude
        ((Scientific.ofRatio realPlaces x.ratio.1 x.ratio.2).value realPlaces) := by
  have h := Scientific.ofRatio_spec (show 0 < realPlaces by decide) x.ratio.1 x.ratio.2
    (x.ratio_num_pos nonzero) x.ratio_pos
  rw [ratio_magnitude] at h
  exact h

/-- What the magnitude of a finite double is written as: digits on both sides of
    a point, with an exponent only if the rounded magnitude is too small or too
    large. -/
structure Written (x : Binary64) (codes whole fraction : List Nat) (mark : Option Int) : Prop where
  form : Pointed codes whole fraction mark
  rounded : IsRounded 15 x.magnitude (pointedValue whole fraction mark)
  marked : mark.isSome = true ↔ x.isZero = false ∧
    ∃ e, HasExponent (pointedValue whole fraction mark) e ∧ (e < -4 ∨ 15 ≤ e)
  single : mark.isSome = true → whole.length = 1
  trimmed : fraction.getLast? = some 48 → fraction = [48]

/-- The magnitude of a finite double is rounded to fifteen digits and laid out.
    It is the exponent after rounding that decides between the forms: a double
    just below a power of ten is written as this power, and in the form that
    belongs to it. -/
theorem magnitudeText_written (x : Binary64) :
    ∃ whole fraction mark, x.Written (charCodes x.magnitudeText) whole fraction mark := by
  unfold magnitudeText
  rcases hzero : x.isZero with _ | _
  · rw [if_neg Bool.false_ne_true]
    simp only []
    rcases x.digits_rounded hzero with ⟨hplaces, rounded⟩
    generalize Scientific.ofRatio realPlaces x.ratio.1 x.ratio.2 = s at hplaces rounded
    rcases s.trimmed_digits realPlaces (by decide) hplaces with ⟨digits, hvalue, hlast⟩
    rcases Layout.render_laidOut s.trimmed digits s.exponent with
      ⟨whole, fraction, mark, laid, hmark, hsingle⟩
    -- The exponent of the number that is written is that of the coefficient.
    have hsame := laid.value
    rw [charCodes_length, hvalue] at hsame
    have hexponent := hplaces.exponent (by decide)
    rw [← hsame] at rounded hexponent
    refine ⟨whole, fraction, mark, laid.form, rounded, ?_, hsingle, ?_⟩
    · rw [hmark]
      constructor
      · exact fun h => ⟨hzero, s.exponent, hexponent, h⟩
      · rintro ⟨-, e, he, h⟩
        rw [he.unique hexponent] at h
        exact h
    · intro h
      rcases laid.last with hfraction | hfraction
      · exact hfraction
      · rw [hfraction] at h
        exact absurd h hlast
  · -- Zero has no leading digit.
    rw [if_pos rfl]
    refine ⟨[48], [48], none, .plain Layout.isDigits_zero Layout.isDigits_zero, ?_, ?_,
      fun h => absurd h Bool.false_ne_true, fun _ => rfl⟩
    · rw [x.magnitude_eq_zero_iff.mpr hzero, pointedValue_eq,
        show number ([48] ++ [48]) = 0 from number_zeros 2, Nat.cast_zero, zero_mul]
      exact .zero
    · rw [hzero]
      exact ⟨fun h => absurd h Bool.false_ne_true, fun h => nomatch h.1⟩

/-- The text of a finite double is its magnitude behind its sign. -/
theorem text_codes (x : Binary64) (finite : x.isFinite = true) :
    x.text.codes = minus x.negative ++ charCodes x.magnitudeText := by
  unfold text
  rw [if_neg (by rw [x.isNaN_of_isFinite finite]; exact Bool.false_ne_true),
    if_neg (by rw [x.isInfinite_of_isFinite finite]; exact Bool.false_ne_true), codes_ofChars]
  cases x.negative with
  | false => rfl
  | true => rfl

/-- The text of a finite double denotes its rounded magnitude, with its sign. -/
theorem text_denotes (x : Binary64) (finite : x.isFinite = true) :
    ∃ r, DecimalNumber x.text.codes x.negative r ∧ IsRounded 15 x.magnitude r := by
  rcases x.magnitudeText_written with ⟨whole, fraction, mark, written⟩
  refine ⟨_, ?_, written.rounded⟩
  rw [x.text_codes finite]
  exact written.form.denotes x.negative

/-- Doubles that are rounded to the same number have the same text. There is one
    way to write a number with fifteen digits, and everything else is computed
    from these digits. -/
theorem text_congr (x y : Binary64) (hx : x.isFinite = true) (hy : y.isFinite = true)
    (sign : x.negative = y.negative) {r : ℚ} (left : IsRounded 15 x.magnitude r)
    (right : IsRounded 15 y.magnitude r) : x.text = y.text := by
  have hmagnitude : x.magnitudeText = y.magnitudeText := by
    have hzero : x.isZero = y.isZero := by
      rw [Bool.eq_iff_iff, ← magnitude_eq_zero_iff, ← magnitude_eq_zero_iff,
        ← left.eq_zero_iff (by decide), ← right.eq_zero_iff (by decide)]
    unfold magnitudeText
    rw [← hzero]
    rcases hx : x.isZero with _ | _
    · -- There is one way to write the rounded number with so many digits.
      rw [if_neg Bool.false_ne_true, if_neg Bool.false_ne_true]
      rcases x.digits_rounded hx with ⟨hxplaces, hxrounded⟩
      rcases y.digits_rounded (hzero.symm.trans hx) with ⟨hyplaces, hyrounded⟩
      have hsame := hxplaces.unique (by decide) hyplaces
        ((hxrounded.unique (by decide) left).trans (right.unique (by decide) hyrounded))
      simp only [hsame]
    · rw [if_pos rfl, if_pos rfl]
  unfold text
  rw [x.isNaN_of_isFinite hx, y.isNaN_of_isFinite hy, x.isInfinite_of_isFinite hx,
    y.isInfinite_of_isFinite hy, sign, hmagnitude]

end Binary64

/-! ### The order of texts -/

/-- Rounding keeps the order of numbers with signs. On either side of zero this
    is the order of magnitudes, and across zero the signs alone decide, since
    rounding does not change them. -/
theorem IsRounded.signed_mono {places : Nat} (positive : 0 < places) {n m : Bool} {p q r s : ℚ}
    (left : IsRounded places p r) (right : IsRounded places q s)
    (le : signed n p ≤ signed m q) : signed n r ≤ signed m s := by
  have hp := left.source_nonneg
  have hq := right.source_nonneg
  have hr := left.nonneg
  have hs := right.nonneg
  cases n with
  | false =>
      rw [signed_false] at le ⊢
      cases m with
      | false => exact left.mono positive right le
      | true =>
          -- Only zero is on both sides.
          rw [signed_true] at le ⊢
          rw [(left.eq_zero_iff positive).mpr (by linarith),
            (right.eq_zero_iff positive).mpr (by linarith), neg_zero]
  | true =>
      rw [signed_true] at le ⊢
      cases m with
      | false =>
          rw [signed_false]
          linarith
      | true =>
          rw [signed_true] at le ⊢
          exact neg_le_neg (right.mono positive left (neg_le_neg_iff.mp le))

/-- A text as a whole denotes a rational number. -/
def Text.Denotes (t : Text) (v : ℚ) : Prop :=
  ∃ negative q, DecimalNumber t.codes negative q ∧ v = signed negative q

theorem Text.Denotes.unique {t : Text} {v : ℚ} {negative : Bool} {q : ℚ} (h : t.Denotes v)
    (number : DecimalNumber t.codes negative q) : v = signed negative q := by
  rcases h with ⟨other, r, hr, rfl⟩
  rcases Scan.decimalNumber_unique t hr number with ⟨rfl, rfl⟩
  rfl

namespace Binary64

/-- How a finite double is written as text. -/
structure IsRendered (x : Binary64) : Prop where
  /-- There is a minus if and only if the sign is set, and the text denotes the
      rounded double. -/
  written : ∃ codes whole fraction mark, x.text.codes = minus x.negative ++ codes ∧
    x.Written codes whole fraction mark ∧
    x.text.Denotes (signed x.negative (pointedValue whole fraction mark))
  /-- The order of doubles is that of what their texts denote. -/
  monotone : ∀ y : Binary64, y.isFinite = true → x.Le y →
    ∀ v w, x.text.Denotes v → y.text.Denotes w → v ≤ w

/-- A finite double is written as its magnitude rounded to fifteen digits,
    behind its sign. Whether there is an exponent is decided by the rounded
    magnitude, so a double just below a power of ten may have the form of that
    power. Two doubles in order are written as texts that denote numbers in the
    same order, though these may be equal: seventeen digits are needed to tell
    all doubles apart. -/
theorem text_rendered (x : Binary64) (finite : x.isFinite = true) : x.IsRendered := by
  refine ⟨?_, ?_⟩
  · rcases x.magnitudeText_written with ⟨whole, fraction, mark, written⟩
    refine ⟨_, whole, fraction, mark, x.text_codes finite, written, _, _, ?_, rfl⟩
    rw [x.text_codes finite]
    exact written.form.denotes x.negative
  · intro y hy le v w hv hw
    rcases x.text_denotes finite with ⟨r, hr, left⟩
    rcases y.text_denotes hy with ⟨s, hs, right⟩
    rw [hv.unique hr, hw.unique hs]
    exact left.signed_mono (by decide) right (le.value_le finite hy)

/-- The last double below `10 ^ 15`. -/
def belowForm : Binary64 := ofBits 0x430C6BF52633FFFF

/-- It is rounded up to a power of ten, and so it is written with an
    exponent. -/
theorem text_rendered_belowForm :
    belowForm.isFinite = true ∧ belowForm.IsRendered ∧
      belowForm.text = Text.ofString "1.0e+15" := by
  have finite : belowForm.isFinite = true := by decide
  exact ⟨finite, text_rendered belowForm finite, by decide +kernel⟩

end Binary64

end RowScope
