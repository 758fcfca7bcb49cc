import RowScope.Cell.Projection
import RowScope.Proofs.Number.Leading
import RowScope.Proofs.Number.Nearest
import RowScope.Proofs.Text.RoundTrip

/-!
# Numbers at the Head of a Cell

A text or a blob that is read as a number is read from its bytes: it counts for
the longest number that its bytes start with, and for zero if they start with
none. The code reads the text of the cell, and for a blob that is whatever its
bytes decode to. That this makes no difference is because all codes of numbers
are ASCII, and the codec keeps ASCII apart: the bytes of a code point that is
not ASCII start with a byte that is not ASCII either. So a text and its bytes
have the same prefixes that are ASCII, also if the bytes are not UTF-8 at all.

## Main definitions

* `Cell.IsTextual`: A text or a blob, with its bytes.
* `Cell.ReadsWhole`: The integer reading is that of the longest whole number.
* `Cell.ReadsDecimal`: The reading as a real is that of the longest decimal
  number.

## Theorems

* `sameAscii_encode`: A text and its bytes have the same prefixes that are
  ASCII.
* `int64_leading`: The integer reading of a text or a blob.
* `double_leading`: The reading as a real.
-/

namespace RowScope

open Grammar

namespace Text

/-- The bytes of a code point that is not ASCII start with a byte that is not
    ASCII: the lead byte of a longer spelling, or the very byte that a surrogate
    stands for. -/
theorem encodePoint_high (c : CodePoint) (head : Bytes) (h : encodePoint c = some head)
    (hc : 0x80 ≤ c.val) : ∃ b more, head = b :: more ∧ 128 ≤ b.toNat := by
  rcases (encodePoint_eq_some_iff c head).mp h with ⟨a, follow, rfl, hspells⟩ | ⟨b, hb, -, rfl⟩
  · refine ⟨a, follow, rfl, ?_⟩
    cases hspells with
    | one lead below => omega
    | two lead second above below => omega
    | three lead second third above below scalar => omega
    | four lead second third fourth above => omega
  · exact ⟨b, [], rfl, hb⟩

/-- A text and its bytes have the same prefixes that are ASCII. By induction on
    the text: a code point that is ASCII is one byte with the same code, and at
    the first one that is not, no such prefix goes on in either of them. -/
theorem sameAscii_encode (t : Text) (bytes : Bytes) (h : encode t = some bytes) :
    SameAscii t.codes (Bytes.codes bytes) := by
  intro p hp
  induction t generalizing bytes p with
  | nil =>
      rw [← Option.some.inj h]
      exact Iff.rfl
  | cons c rest ih =>
      simp only [encode, Option.bind_eq_bind, Option.bind_eq_some_iff, Option.pure_def,
        Option.some.injEq] at h
      rcases h with ⟨head, hhead, tail, htail, rfl⟩
      rcases p with _ | ⟨n, p⟩
      · exact ⟨fun _ => List.nil_prefix, fun _ => List.nil_prefix⟩
      · have hn := hp n List.mem_cons_self
        have hcodes : Bytes.codes (head ++ tail) = Bytes.codes head ++ Bytes.codes tail :=
          List.map_append
        rw [hcodes, Text.codes, List.map_cons, List.cons_prefix_cons]
        by_cases hc : c.val < 0x80
        · -- An ASCII code point is a byte.
          have hsame : Bytes.codes head = [c.val] := by
            rw [encodePoint_ascii c hc, Option.some.injEq] at hhead
            rw [← hhead, Bytes.codes, List.map_singleton, UInt8.toNat_ofNat',
              Nat.mod_eq_of_lt (by omega)]
          rw [hsame, List.singleton_append, List.cons_prefix_cons]
          exact and_congr_right fun _ =>
            ih tail htail p fun m hm => hp m (List.mem_cons_of_mem n hm)
        · rcases encodePoint_high c head hhead (Nat.le_of_not_lt hc) with ⟨b, more, rfl, hb⟩
          rw [Bytes.codes, List.map_cons, List.cons_append, List.cons_prefix_cons]
          constructor
          · intro hprefix
            omega
          · intro hprefix
            omega

end Text

namespace Cell

/-- A cell is a text or a blob, and has these bytes. -/
structure IsTextual (c : Cell) (bytes : Bytes) : Prop where
  textual : c.storageClass = .ok .text ∨ c.storageClass = .ok .blob
  written : c.bytes? = .ok (some bytes)

/-- Texts that were decoded from bytes, and blobs, have these bytes, so what is
    said of textual cells is said of all of them. -/
theorem isTextual_of_bytes (bytes : Bytes) : (text (Text.decode bytes)).IsTextual bytes ∧
    (blob bytes).IsTextual bytes ∧ (window bytes).IsTextual bytes := by
  refine ⟨⟨Or.inl rfl, ?_⟩, ⟨Or.inr rfl, rfl⟩, ⟨Or.inr rfl, rfl⟩⟩
  rw [bytes?, encoded, Text.encode_decode]
  rfl

/-- A text or a blob is read from a text that is written as its bytes. For a
    text this is the text itself, and for a blob what its bytes decode to. Both
    readings go by this text alone, so neither has to know which of them it
    was. -/
theorem IsTextual.read {c : Cell} {bytes : Bytes} (h : c.IsTextual bytes) :
    ∃ t : Text, Text.encode t = some bytes ∧ c.int64 = textToInt64 t ∧
      c.double = .ok (textToDouble t) := by
  rcases h with ⟨textual, written⟩
  cases c with
  | null => exact absurd textual (by decide)
  | integer n => exact absurd textual (by simp [storageClass])
  | real x => exact absurd textual (by simp [storageClass])
  | text t =>
      refine ⟨t, ?_, rfl, rfl⟩
      rw [bytes?, encoded] at written
      rcases ht : Text.encode t with _ | b
      · rw [ht] at written
        exact nomatch written
      · rw [ht] at written
        exact congrArg some (Option.some.inj (Except.ok.inj written))
  | blob b =>
      rw [bytes?, Except.ok.injEq, Option.some.injEq] at written
      -- The text of a blob is encoded to the blob again, whatever its bytes
      -- are.
      exact ⟨Text.decode b, by rw [Text.encode_decode, written], rfl, rfl⟩
  | window b =>
      rw [bytes?, Except.ok.injEq, Option.some.injEq] at written
      exact ⟨Text.decode b, by rw [Text.encode_decode, written], rfl, rfl⟩
  | foreign typeName content => exact absurd textual (by simp [storageClass])

/-- A text or a blob starts with no number of a form, or with a longest one. The
    cases of a reading are therefore all cases, whatever the form. -/
theorem absent_or_longest (form : List Nat → Prop) (codes : List Nat) :
    (∀ p, p <+: codes → ¬ form p) ∨ ∃ p, Longest form codes p := by
  by_cases h : ∃ p, p <+: codes ∧ form p
  · rcases h with ⟨p, hp, hform⟩
    exact Or.inr (exists_longest form codes p hp hform)
  · push Not at h
    exact Or.inl h

/-- What starts with no number of a form does so in all lists with the same
    ASCII prefixes, the numbers of the form being ASCII. -/
theorem absent_congr {form : List Nat → Prop} {a b : List Nat} (same : SameAscii a b)
    (ascii : ∀ q, form q → ∀ n ∈ q, n < 128) (h : ∀ p, p <+: a → ¬ form p) :
    ∀ p, p <+: b → ¬ form p := by
  intro p hp hform
  exact h p ((same p (ascii p hform)).mpr hp) hform

theorem isWhole_ascii (p : List Nat) (h : IsWhole p) : ∀ n ∈ p, n < 128 := by
  rcases h with ⟨negative, ds, h⟩
  exact h.ascii

theorem isDecimal_ascii (p : List Nat) (h : IsDecimal p) : ∀ n ∈ p, n < 128 := by
  rcases h with ⟨negative, q, h⟩
  exact h.ascii

/-! ### Whole numbers -/

/-- Texts with the same ASCII prefixes start with the same whole number. They
    need not be the same texts, and need not even be as long. -/
theorem whole?_congr (t u : Text) (same : SameAscii t.codes u.codes) :
    Scan.whole? t = Scan.whole? u := by
  rcases absent_or_longest IsWhole t.codes with habsent | ⟨p, hp⟩
  · rw [Scan.whole?_absent t habsent,
      Scan.whole?_absent u (absent_congr same isWhole_ascii habsent)]
  · rcases hp.formed with ⟨negative, ds, hform⟩
    rw [Scan.whole?_longest t p ds negative hp hform,
      Scan.whole?_longest u p ds negative (hp.congr same isWhole_ascii) hform]

/-- The integer reading of a cell is that of the longest whole number that its
    bytes start with. -/
structure ReadsWhole (c : Cell) (bytes : Bytes) : Prop where
  absent : (∀ p, p <+: Bytes.codes bytes → ¬ IsWhole p) → c.int64 = .ok 0
  /-- The number is fitted into 64 bits. -/
  present : ∀ p negative ds, Longest IsWhole (Bytes.codes bytes) p → WholeNumber p negative ds →
    ds.length ≤ 4300 → c.int64 = .ok
      (max (-2 ^ 63) (min (2 ^ 63 - 1) (if negative then -(number ds : Int) else number ds)))
  overlong : ∀ p negative ds, Longest IsWhole (Bytes.codes bytes) p → WholeNumber p negative ds →
    4300 < ds.length → c.int64 = .error .tooManyDigits
  /-- There is no other case. -/
  decided : (∀ p, p <+: Bytes.codes bytes → ¬ IsWhole p) ∨
    ∃ p negative ds, Longest IsWhole (Bytes.codes bytes) p ∧ WholeNumber p negative ds
  /-- Whether it is a text or a blob does not matter. -/
  same : ∀ d : Cell, d.IsTextual bytes → d.int64 = c.int64
  /-- What is behind the first byte that is not ASCII does not matter. -/
  ascii : (blob (bytes.takeWhile fun b => decide (b.toNat < 128))).int64 = c.int64

/-- A text or a blob counts for the whole number that its bytes start with,
    brought into the range of 64 bits. Only the number of digits can make the
    reading fail, and a text that starts with no number counts for zero. The
    scanner is known for texts; that the text may be replaced by the bytes, by
    the bytes before the first one that is not ASCII, or by any other cell with
    these bytes, is always the same fact about ASCII prefixes. -/
theorem int64_leading (c : Cell) (bytes : Bytes) (h : c.IsTextual bytes) :
    c.ReadsWhole bytes := by
  rcases h.read with ⟨t, hencode, hint, -⟩
  have same := Text.sameAscii_encode t bytes hencode
  have found : ∀ p negative ds, Longest IsWhole (Bytes.codes bytes) p →
      WholeNumber p negative ds → Scan.whole? t = some ⟨negative, ds.map (· - 48)⟩ :=
    fun p negative ds hp hform =>
      Scan.whole?_longest t p ds negative (hp.congr same.symm isWhole_ascii) hform
  -- Two texts that are written with the same ASCII prefixes are read as the
  -- same integer.
  have agree : ∀ u : Text, SameAscii t.codes u.codes → textToInt64 u = c.int64 := by
    intro u hu
    rw [hint, textToInt64, textToInt64, whole?_congr t u hu]
  refine ⟨?_, ?_, ?_, ?_, ?_, ?_⟩
  · intro habsent
    rw [hint, textToInt64, Scan.whole?_absent t (absent_congr same.symm isWhole_ascii habsent)]
  · intro p negative ds hp hform hlength
    have hlimit : (ds.map (· - 48)).length ≤ digitLimit := by
      rw [List.length_map]
      exact hlength
    rw [hint, textToInt64, found p negative ds hp hform]
    simp only [hlimit, if_true, Scan.Whole.toInt, Scan.value_digits]
    rfl
  · intro p negative ds hp hform hlength
    have hlimit : ¬ (ds.map (· - 48)).length ≤ digitLimit := by
      rw [List.length_map]
      exact Nat.not_le.mpr hlength
    rw [hint, textToInt64, found p negative ds hp hform]
    simp only [hlimit, if_false]
  · rcases absent_or_longest IsWhole (Bytes.codes bytes) with habsent | ⟨p, hp⟩
    · exact Or.inl habsent
    · rcases hp.formed with ⟨negative, ds, hform⟩
      exact Or.inr ⟨p, negative, ds, hp, hform⟩
  · -- Another cell with these bytes is read from another text, which is written
    -- as they are.
    intro d hd
    rcases hd.read with ⟨u, hu, hdint, -⟩
    rw [hdint]
    refine agree u ?_
    intro p hp
    exact (same p hp).trans ((Text.sameAscii_encode u bytes hu).symm p hp)
  · refine agree _ ?_
    -- To cut the bytes and to cut their codes is the same.
    have hcut : Bytes.codes (bytes.takeWhile fun b => decide (b.toNat < 128)) =
        (Bytes.codes bytes).takeWhile fun n => decide (n < 128) := by
      rw [Bytes.codes, Bytes.codes, List.takeWhile_map]
      rfl
    have hdecode := Text.sameAscii_encode _ _
      (Text.encode_decode (bytes.takeWhile fun b => decide (b.toNat < 128)))
    rw [hcut] at hdecode
    intro p hp
    exact (same p hp).trans ((sameAscii_cut _ p hp).trans (hdecode.symm p hp))

/-- A blank, a minus, two digits, a byte that is not ASCII and one more
    digit. -/
def garbledNumber : Bytes := [0x20, 0x2D, 0x31, 0x32, 0xFF, 0x33]

/-- The digit behind the byte that is not ASCII does not count. -/
theorem int64_leading_garbledNumber :
    (blob garbledNumber).IsTextual garbledNumber ∧ (blob garbledNumber).ReadsWhole garbledNumber ∧
      (blob garbledNumber).int64 = .ok (-12) := by
  have textual := (isTextual_of_bytes garbledNumber).2.1
  exact ⟨textual, int64_leading _ _ textual, by decide⟩

/-! ### Decimal numbers -/

/-- The reading of a cell as a real is the double nearest to the longest decimal
    number that its bytes start with. -/
structure ReadsDecimal (c : Cell) (bytes : Bytes) : Prop where
  absent : (∀ p, p <+: Bytes.codes bytes → ¬ IsDecimal p) → c.double = .ok (Binary64.zero false)
  /-- The double is the nearest one, and the only one that is nearest. -/
  present : ∀ p negative q, Longest IsDecimal (Bytes.codes bytes) p → DecimalNumber p negative q →
    ∃ x, c.double = .ok x ∧ x.IsNearest negative q ∧ ∀ y, y.IsNearest negative q → y = x
  /-- There is no other case. -/
  decided : (∀ p, p <+: Bytes.codes bytes → ¬ IsDecimal p) ∨
    ∃ p negative q, Longest IsDecimal (Bytes.codes bytes) p ∧ DecimalNumber p negative q
  /-- A point or an exponent that does not go on changes nothing. -/
  unfinished : ∀ p tail negative q, DecimalNumber p negative q → Unfinished tail →
    Ends IsNumeral (Bytes.codes bytes) (p ++ tail) →
      ∃ x, c.double = .ok x ∧ x.IsNearest negative q
  /-- Whether it is a text or a blob does not matter. -/
  same : ∀ d : Cell, d.IsTextual bytes → d.double = c.double

/-- The double of what the scanner has found is the nearest one. The scanner
    hands over a coefficient and an exponent and rounds nothing, so this is the
    only rounding there is. -/
theorem toBinary64_nearest (d : Scan.Decimal) (q : ℚ)
    (h : (d.coefficient : ℚ) * 10 ^ d.exponent = q) : d.toBinary64.IsNearest d.negative q := by
  rw [← h]
  exact Binary64.ofDecimal_nearest d.negative d.coefficient d.exponent

/-- A text that is written as bytes is read as the double nearest to the decimal
    number that the bytes start with, and as zero if they start with none. -/
theorem textToDouble_leading (t : Text) (bytes : Bytes) (h : Text.encode t = some bytes) :
    ((∀ p, p <+: Bytes.codes bytes → ¬ IsDecimal p) → textToDouble t = Binary64.zero false) ∧
      ∀ p negative q, Longest IsDecimal (Bytes.codes bytes) p → DecimalNumber p negative q →
        (textToDouble t).IsNearest negative q := by
  have same := Text.sameAscii_encode t bytes h
  constructor
  · intro habsent
    rw [textToDouble, Scan.decimal?_absent t (absent_congr same.symm isDecimal_ascii habsent)]
  · intro p negative q hp hform
    rcases Scan.decimal?_longest t p negative q (hp.congr same.symm isDecimal_ascii) hform with
      ⟨d, hd, rfl, hq⟩
    rw [textToDouble, hd]
    exact toBinary64_nearest d q hq

/-- A text or a blob counts for the decimal number that its bytes start with,
    rounded once. No number of digits is too many here, and an exponent that
    breaks off is left out. The nearest double is unique, ties being decided and
    the sign being part of the number, and this is also why all cells with these
    bytes are read as the same double. -/
theorem double_leading (c : Cell) (bytes : Bytes) (h : c.IsTextual bytes) :
    c.ReadsDecimal bytes := by
  rcases h.read with ⟨t, hencode, -, hdouble⟩
  have same := Text.sameAscii_encode t bytes hencode
  rcases textToDouble_leading t bytes hencode with ⟨absent, present⟩
  have decided : (∀ p, p <+: Bytes.codes bytes → ¬ IsDecimal p) ∨
      ∃ p negative q, Longest IsDecimal (Bytes.codes bytes) p ∧ DecimalNumber p negative q := by
    rcases absent_or_longest IsDecimal (Bytes.codes bytes) with habsent | ⟨p, hp⟩
    · exact Or.inl habsent
    · rcases hp.formed with ⟨negative, q, hform⟩
      exact Or.inr ⟨p, negative, q, hp, hform⟩
  refine ⟨?_, ?_, decided, ?_, ?_⟩
  · intro habsent
    rw [hdouble, absent habsent]
  · intro p negative q hp hform
    have hnearest := present p negative q hp hform
    exact ⟨_, hdouble, hnearest, fun y hy => hy.unique hnearest⟩
  · intro p tail negative q hform htail hends
    -- What is unfinished is ASCII as well, so it is at the head of the text
    -- too.
    have hascii : ∀ n ∈ p ++ tail, n < 128 := by
      intro n hn
      rcases List.mem_append.mp hn with hn | hn
      · exact hform.ascii n hn
      · exact htail.ascii n hn
    rcases Scan.decimal?_unfinished t p tail negative q hform htail
      (hends.congr same.symm hascii fun _ => IsNumeral.ascii) with ⟨d, hd, rfl, hq⟩
    refine ⟨_, hdouble, ?_⟩
    rw [textToDouble, hd]
    exact toBinary64_nearest d q hq
  · intro d hd
    rcases hd.read with ⟨u, hu, -, hudouble⟩
    rcases textToDouble_leading u bytes hu with ⟨uabsent, upresent⟩
    rw [hdouble, hudouble]
    congr 1
    rcases decided with habsent | ⟨p, negative, q, hp, hform⟩
    · rw [absent habsent, uabsent habsent]
    · exact (upresent p negative q hp hform).unique (present p negative q hp hform)

/-- One and a half, and the mark of an exponent. -/
def unfinishedNumber : Bytes := [0x31, 0x2E, 0x35, 0x65, 0x2B]

/-- The mark does not count. -/
theorem double_leading_unfinishedNumber :
    (blob unfinishedNumber).IsTextual unfinishedNumber ∧
      (blob unfinishedNumber).ReadsDecimal unfinishedNumber ∧
      (blob unfinishedNumber).double = .ok (Binary64.ofBits 0x3FF8000000000000) := by
  have textual := (isTextual_of_bytes unfinishedNumber).2.1
  exact ⟨textual, double_leading _ _ textual, by decide +kernel⟩

end Cell

end RowScope
