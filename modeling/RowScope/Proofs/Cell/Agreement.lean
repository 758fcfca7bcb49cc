import RowScope.Proofs.Cell.Leading
import RowScope.Proofs.Cell.Truncation

/-!
# The Two Readings of a Text Agree

A text or a blob can be read as an integer and as a real, and there is a scanner
for each. They do not know of each other: one looks for a sign and digits, the
other for digits on either side of a point, and each takes the longest number of
its own form. So it is not clear that both find the same number. One of them may
find a number where the other finds none, as in `.5`, and the decimal number may
go on where the whole number has ended.

They do agree, up to the fraction. A whole number is a decimal number too, so
every whole number at the head of a list lies in the longest decimal number
there. And it cannot get past the digits before the point: what follows them is
a point or the mark of an exponent, which occur in no whole number. So the
longest whole number is the part of the decimal number that ends before the
point, and if there are no digits in that part there is no whole number at all.
In both cases what the integer reading misses is the fraction, and that is what
dropping the fraction means.

Only an exponent sets them apart. The real is scaled by it, and the integer is
not.

## Main definitions

* `Grammar.PlainNumber`: A decimal number without exponent, with the digits
  before its point.
* `Cell.codes?`: What a text or a blob is read from.
* `Cell.ReadsAlike`: The integer reading is the decimal number without its
  fraction.

## Theorems

* `Grammar.whole_within`: A whole number ends before the point of the longest
  decimal number.
* `Grammar.longest_whole`: The digits before the point are the longest whole
  number.
* `Grammar.truncated_plain`: Without its fraction, a number is what the digits
  before its point write.
* `Cell.reads_alike`: The readings of a text or a blob agree.
-/

namespace RowScope

namespace Grammar

/-- A decimal number behind blanks that has no exponent, with its sign, the
    digits before its point and its magnitude. -/
inductive PlainNumber : List Nat → Bool → List Nat → ℚ → Prop
  | mk {blanks sgn m before after : List Nat} {negative : Bool} (blank : ∀ b ∈ blanks, IsBlank b)
      (sign : Sign sgn negative) (mantissa : Mantissa m before after) :
      PlainNumber (blanks ++ (sgn ++ m)) negative before
        (number before + number after / 10 ^ after.length)

/-- A number without exponent is a decimal number: it is scaled by the zeroth
    power of ten. -/
theorem PlainNumber.decimal {p before : List Nat} {negative : Bool} {q : ℚ}
    (h : PlainNumber p negative before q) : DecimalNumber p negative q := by
  cases h with
  | @mk blanks sgn m _ _ _ blank sign mantissa =>
      have hnumber := DecimalNumber.mk blank sign mantissa Exponent.none
      rw [List.append_nil, zpow_zero, mul_one] at hnumber
      exact hnumber

/-- A whole number is a decimal number, namely one without a point. So a longest
    decimal number is at least as long as every whole number at the same
    place. -/
theorem IsWhole.decimal {p : List Nat} (h : IsWhole p) : IsDecimal p := by
  rcases h with ⟨negative, ds, ⟨blank, sign, digits⟩⟩
  exact ⟨negative, _, (PlainNumber.mk blank sign (.whole digits)).decimal⟩

/-! ### Where a whole number ends -/

/-- The codes that occur in whole numbers. -/
def IsWholeCode (n : Nat) : Prop := IsBlank n ∨ n = 43 ∨ n = 45 ∨ IsDigit n

theorem Sign.codes {sgn : List Nat} {negative : Bool} (h : Sign sgn negative) :
    ∀ n ∈ sgn, n = 43 ∨ n = 45 := by
  intro n hn
  cases h with
  | none => exact absurd hn List.not_mem_nil
  | plus => exact Or.inl (List.mem_singleton.mp hn)
  | minus => exact Or.inr (List.mem_singleton.mp hn)

/-- A whole number is made of blanks, signs and digits, and of nothing that
    comes behind the digits before a point. -/
theorem WholeNumber.codes {p ds : List Nat} {negative : Bool} (h : WholeNumber p negative ds) :
    ∀ n ∈ p, IsWholeCode n := by
  intro n hn
  cases h with
  | mk blank sign digits =>
      rcases List.mem_append.mp hn with hn | hn
      · exact Or.inl (blank n hn)
      · rcases List.mem_append.mp hn with hn | hn
        · rcases sign.codes n hn with h | h
          · exact Or.inr (Or.inl h)
          · exact Or.inr (Or.inr (Or.inl h))
        · exact Or.inr (Or.inr (Or.inr (digits.2 n hn)))

/-- A prefix whose codes are all of a kind does not reach beyond the first code
    that is not, so it lies in what comes before. -/
theorem Stops.prefix_front {kind : Nat → Prop} {front tail p : List Nat} (stops : Stops kind tail)
    (hp : ∀ n ∈ p, kind n) (h : p <+: front ++ tail) : p <+: front := by
  rcases List.prefix_or_prefix_of_prefix h (List.prefix_append front tail) with h' | ⟨more, rfl⟩
  · exact h'
  · rcases more with _ | ⟨c, more⟩
    · rw [List.append_nil]
    · -- What the prefix has beyond the front starts with the code that stops
      -- it.
      rcases (List.prefix_append_right_inj front).mp h with ⟨rest, rfl⟩
      exact absurd (hp c (List.mem_append_right front List.mem_cons_self)) (stops c rfl)

/-- What follows the digits before the point occurs in no whole number. It is
    the point, or the mark of the exponent if there is no point, or nothing at
    all. -/
theorem Mantissa.tail {m x before after : List Nat} {e : Int} (h : Mantissa m before after)
    (hx : Exponent x e) : ∃ tail, m ++ x = before ++ tail ∧ Stops IsWholeCode tail := by
  have hpoint : ¬ IsWholeCode 46 := by unfold IsWholeCode; decide
  have hsmall : ¬ IsWholeCode 101 := by unfold IsWholeCode; decide
  have hcapital : ¬ IsWholeCode 69 := by unfold IsWholeCode; decide
  cases h with
  | whole digits =>
      refine ⟨x, rfl, ?_⟩
      rcases eq_or_ne x [] with rfl | hne
      · exact fun c hc => nomatch hc
      · have hstops := hx.stops hne IsWholeCode [] hsmall hcapital
        rw [List.append_nil] at hstops
        exact hstops
  | @pointed _ after digits others =>
      refine ⟨46 :: (after ++ x), ?_, Stops.cons hpoint⟩
      rw [List.append_assoc, List.cons_append]
  | fraction digits => exact ⟨_, rfl, Stops.cons hpoint⟩

/-- The digits before the point are digits. -/
theorem Mantissa.digits_before {m before after : List Nat} (h : Mantissa m before after)
    (hne : before ≠ []) : IsDigits before := by
  cases h with
  | whole digits => exact digits
  | pointed digits others => exact digits
  | fraction digits => exact absurd rfl hne

theorem Mantissa.digits_after {m before after : List Nat} (h : Mantissa m before after) :
    ∀ d ∈ after, IsDigit d := by
  cases h with
  | whole digits => exact fun d hd => absurd hd List.not_mem_nil
  | pointed digits others => exact others
  | fraction digits => exact digits.2

section

variable {codes blanks sgn m x before after : List Nat} {negative : Bool} {e : Int}

/-- A whole number ends before the point of the longest decimal number. It lies
    within that number, being a decimal number itself and no longer; and it
    cannot reach beyond the digits before the point, because what follows them
    occurs in no whole number. -/
theorem whole_within (h : Longest IsDecimal codes (blanks ++ (sgn ++ (m ++ x))))
    (mantissa : Mantissa m before after) (exponent : Exponent x e) (p : List Nat)
    (hp : p <+: codes) (hwhole : IsWhole p) : p <+: blanks ++ (sgn ++ before) := by
  rcases mantissa.tail exponent with ⟨tail, htail, hstops⟩
  -- It is a decimal number itself, and no longer than the longest one.
  have hshort := List.prefix_of_prefix_length_le hp h.within (h.longest p hp hwhole.decimal)
  rw [htail, ← List.append_assoc sgn, ← List.append_assoc blanks] at hshort
  rcases hwhole with ⟨negative, ds, hnumber⟩
  exact hstops.prefix_front hnumber.codes hshort

/-- The digits before the point are the longest whole number. With the blanks
    and the sign in front they are a whole number themselves, and no other one
    gets further. -/
theorem longest_whole (h : Longest IsDecimal codes (blanks ++ (sgn ++ (m ++ x))))
    (blank : ∀ b ∈ blanks, IsBlank b) (sign : Sign sgn negative)
    (mantissa : Mantissa m before after) (exponent : Exponent x e) (hne : before ≠ []) :
    WholeNumber (blanks ++ (sgn ++ before)) negative before ∧
      Longest IsWhole codes (blanks ++ (sgn ++ before)) := by
  have hnumber := WholeNumber.mk blank sign (mantissa.digits_before hne)
  refine ⟨hnumber, ?_, ⟨negative, before, hnumber⟩, ?_⟩
  · rcases mantissa.tail exponent with ⟨tail, htail, -⟩
    refine List.IsPrefix.trans ⟨tail, ?_⟩ h.within
    rw [htail, List.append_assoc, List.append_assoc]
  · intro p hp hwhole
    exact (whole_within h mantissa exponent p hp hwhole).length_le

/-- Without digits before the point there is no whole number, although there is
    a decimal one, as in `.5`. The integer reading then finds nothing and
    answers zero, which is the number without its fraction. -/
theorem no_whole (h : Longest IsDecimal codes (blanks ++ (sgn ++ (m ++ x))))
    (blank : ∀ b ∈ blanks, IsBlank b) (sign : Sign sgn negative)
    (mantissa : Mantissa m [] after) (exponent : Exponent x e) :
    ∀ p, p <+: codes → ¬ IsWhole p := by
  intro p hp hwhole
  have hfront := whole_within h mantissa exponent p hp hwhole
  rcases hwhole with ⟨other, ds, ⟨-, -, digits⟩⟩
  -- Its first digit would be a blank or a sign.
  rcases List.exists_mem_of_ne_nil ds digits.1 with ⟨d, hd⟩
  have hdigit := digits.2 d hd
  have hmem := hfront.subset (List.mem_append_right _ (List.mem_append_right _ hd))
  rcases List.mem_append.mp hmem with hd | hd
  · exact hdigit.not_blank (blank d hd)
  · rw [List.append_nil] at hd
    have hsign := sign.codes d hd
    unfold IsDigit at hdigit
    omega

end

/-! ### The fraction -/

/-- Some digits write a number below the power of ten that follows them. Put
    behind a point they are therefore a fraction. -/
theorem number_lt (ds : List Nat) (h : ∀ d ∈ ds, IsDigit d) : number ds < 10 ^ ds.length := by
  have hdigits : ∀ d ∈ ds.reverse.map (· - 48), d < 10 := by
    intro d hd
    rcases List.mem_map.mp hd with ⟨n, hn, rfl⟩
    have hn := (h n (List.mem_reverse.mp hn)).2
    omega
  have hlt := Nat.ofDigits_lt_base_pow_length (by decide) hdigits
  rw [List.length_map, List.length_reverse] at hlt
  exact hlt

/-- Without its fraction, a number is what the digits before the point write.
    What is behind the point comes to less than one, and dropping it works
    toward zero on either side, so the sign can be put in front again. -/
theorem truncated_plain {p before : List Nat} {negative : Bool} {q : ℚ}
    (h : PlainNumber p negative before q) :
    truncated (signed negative q) = if negative then -(number before : Int) else number before := by
  cases h with
  | @mk _ _ _ _ after _ blank sign mantissa =>
      have hpow : (0 : ℚ) < 10 ^ after.length := by positivity
      have hnonneg : (0 : ℚ) ≤ number after / 10 ^ after.length := by positivity
      have hlt : (number after : ℚ) / 10 ^ after.length < 1 := by
        rw [div_lt_one hpow]
        exact_mod_cast number_lt after mantissa.digits_after
      have hfloor : ⌊(number before + number after / 10 ^ after.length : ℚ)⌋ = number before := by
        rw [Int.floor_natCast_add, Int.floor_eq_zero_iff.mpr ⟨hnonneg, hlt⟩, add_zero]
      rw [truncated_signed _ _ (by positivity), hfloor]

end Grammar

open Grammar

/-- The integer reading of a text is the decimal number that it starts with,
    without its exponent and without its fraction. Either the digits before the
    point are the longest whole number, or there are none and zero is read. -/
theorem textToInt64_decimal (t : Text) (p x before : List Nat) (negative : Bool) (q : ℚ) (e : Int)
    (h : Longest IsDecimal t.codes (p ++ x)) (plain : PlainNumber p negative before q)
    (exponent : Exponent x e) (short : before.length ≤ digitLimit) :
    textToInt64 t = .ok (clamp64 (truncated (signed negative q))) := by
  rw [truncated_plain plain]
  cases plain with
  | @mk blanks sgn m _ _ _ blank sign mantissa =>
      rw [List.append_assoc, List.append_assoc] at h
      rcases eq_or_ne before [] with rfl | hne
      · rw [textToInt64, Scan.whole?_absent t (no_whole h blank sign mantissa exponent)]
        cases negative with
        | false => rfl
        | true => rfl
      · rcases longest_whole h blank sign mantissa exponent hne with ⟨hnumber, hlongest⟩
        rw [textToInt64, Scan.whole?_longest t _ before negative hlongest hnumber]
        simp only [List.length_map, short, if_true, Scan.Whole.toInt, Scan.value_digits]

namespace Cell

/-- What a text or a blob is read from: the code points of a text, the bytes of
    a blob. -/
def codes? : Cell → Option (List Nat)
  | text t => some t.codes
  | blob bytes => some (Bytes.codes bytes)
  | window bytes => some (Bytes.codes bytes)
  | _ => none

/-- Every text and every blob is read from codes, also a text that cannot be
    encoded. -/
theorem exists_codes (c : Cell) (h : c.storageClass = .ok .text ∨ c.storageClass = .ok .blob) :
    ∃ codes, c.codes? = some codes := by
  cases c with
  | null => exact absurd h (by decide)
  | integer n => exact absurd h (by simp [storageClass])
  | real x => exact absurd h (by simp [storageClass])
  | text t => exact ⟨_, rfl⟩
  | blob bytes => exact ⟨_, rfl⟩
  | window bytes => exact ⟨_, rfl⟩
  | foreign typeName content => exact absurd h (by simp [storageClass])

/-- It is read as a text that starts with the same numbers. The codes of a blob
    are its bytes, and the text is what they decode to; the two agree as far as
    they are ASCII. -/
theorem read_codes (c : Cell) (codes : List Nat) (h : c.codes? = some codes) :
    ∃ t : Text, SameAscii codes t.codes ∧ c.int64 = textToInt64 t ∧
      c.double = .ok (textToDouble t) := by
  -- Encoding takes the bytes back, and leaves ASCII as it is both ways.
  have decoded : ∀ bytes : Bytes, SameAscii (Bytes.codes bytes) (Text.decode bytes).codes :=
    fun bytes => (Text.sameAscii_encode _ bytes (Text.encode_decode bytes)).symm
  cases c with
  | null => exact nomatch h
  | integer n => exact nomatch h
  | real x => exact nomatch h
  | text t =>
      rw [← Option.some.inj h]
      exact ⟨t, fun p _ => Iff.rfl, rfl, rfl⟩
  | blob bytes =>
      rw [← Option.some.inj h]
      exact ⟨Text.decode bytes, decoded bytes, rfl, rfl⟩
  | window bytes =>
      rw [← Option.some.inj h]
      exact ⟨Text.decode bytes, decoded bytes, rfl, rfl⟩
  | foreign typeName content => exact nomatch h

/-- The integer reading of a cell and its reading as a real are of the same
    number. -/
structure ReadsAlike (c : Cell) (codes : List Nat) : Prop where
  absent : (∀ p, p <+: codes → ¬ IsDecimal p) →
    c.int64 = .ok 0 ∧ c.double = .ok (Binary64.zero false)
  /-- The real is the double nearest to the number, and the integer is the
      number without its fraction, within the range. -/
  plain : ∀ p before negative q, Longest IsDecimal codes p → PlainNumber p negative before q →
    before.length ≤ 4300 →
      c.int64 = .ok (max (-2 ^ 63) (min (2 ^ 63 - 1) (truncated (signed negative q)))) ∧
        ∃ x, c.double = .ok x ∧ x.IsNearest negative q
  /-- An exponent does not count for the integer. -/
  scaled : ∀ p x before negative q e, Longest IsDecimal codes (p ++ x) →
    PlainNumber p negative before q → Exponent x e → before.length ≤ 4300 →
      c.int64 = .ok (max (-2 ^ 63) (min (2 ^ 63 - 1) (truncated (signed negative q))))

/-- The readings of a text or a blob agree. Without a decimal number there is no
    whole number either, and both answer zero. Otherwise both are of the longest
    decimal number, which the real is nearest to, and the integer is what is
    left of it when exponent and fraction are dropped. The integer still has its
    limit of digits, so the agreement is about numbers that keep to it. -/
theorem reads_alike (c : Cell) (h : c.storageClass = .ok .text ∨ c.storageClass = .ok .blob) :
    ∃ codes, c.codes? = some codes ∧ c.ReadsAlike codes := by
  rcases c.exists_codes h with ⟨codes, hcodes⟩
  rcases c.read_codes codes hcodes with ⟨t, same, hint, hdouble⟩
  -- Digits that are not too long are read from the text as they stand in the
  -- cell.
  have scaled : ∀ p x before negative q e, Longest IsDecimal codes (p ++ x) →
      PlainNumber p negative before q → Exponent x e → before.length ≤ 4300 →
        c.int64 = .ok (clamp64 (truncated (signed negative q))) := by
    intro p x before negative q e hp plain exponent short
    rw [hint]
    exact textToInt64_decimal t p x before negative q e (hp.congr same isDecimal_ascii) plain
      exponent short
  refine ⟨codes, hcodes, ?_, ?_, scaled⟩
  · intro habsent
    have hdecimal := absent_congr same isDecimal_ascii habsent
    -- A whole number would be a decimal one.
    have hwhole : ∀ p, p <+: t.codes → ¬ IsWhole p :=
      fun p hp hwhole => hdecimal p hp hwhole.decimal
    rw [hint, hdouble, textToInt64, textToDouble, Scan.whole?_absent t hwhole,
      Scan.decimal?_absent t hdecimal]
    exact ⟨rfl, rfl⟩
  · intro p before negative q hp plain short
    refine ⟨?_, textToDouble t, hdouble, ?_⟩
    · refine scaled p [] before negative q 0 ?_ plain Exponent.none short
      rw [List.append_nil]
      exact hp
    · rcases Scan.decimal?_longest t p negative q (hp.congr same isDecimal_ascii) plain.decimal with
        ⟨d, hd, rfl, hq⟩
      rw [textToDouble, hd]
      exact toBinary64_nearest d q hq

/-- A blank, a minus, digits around a point and the mark of an exponent. -/
def fractionalNumber : Bytes := [0x20, 0x2D, 0x31, 0x32, 0x2E, 0x37, 0x35, 0x65]

/-- The integer has no fraction, and neither reading has an exponent. -/
theorem reads_alike_fractionalNumber :
    (blob fractionalNumber).storageClass = .ok .blob ∧
      (∃ codes, (blob fractionalNumber).codes? = some codes ∧
        (blob fractionalNumber).ReadsAlike codes) ∧
      (blob fractionalNumber).int64 = .ok (-12) ∧
      (blob fractionalNumber).double = .ok (Binary64.ofBits 0xC029800000000000) :=
  ⟨rfl, reads_alike (blob fractionalNumber) (Or.inr rfl), by decide, by decide +kernel⟩

end Cell

end RowScope
