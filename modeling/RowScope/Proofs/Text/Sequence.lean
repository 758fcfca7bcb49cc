import RowScope.Text.Codec

/-!
# Sequences of Bytes

Which bytes spell which character, said without the codec. A character has one
spelling, of one to four bytes: the shortest that holds its number, six bits to
each byte but the first. Surrogates have none, and no number above the last code
point does.

The decoder reads exactly these spellings. It looks at ranges of bytes, some of
them narrower for certain lead bytes, and what the narrower ranges leave out is
what is not the shortest form, a surrogate, or too large. The encoder writes
exactly these spellings too, and beside them one byte for each stray.

## Main definitions

* `Text.Spells`: A code point is spelled by a lead byte and the bytes that
  follow it.

## Theorems

* `isSecondOfThree_iff`, `isSecondOfFour_iff`: The ranges of second bytes.
* `Spells.scalar`, `exists_spells`: Every code point but the surrogates is
  spelled, and no other.
* `sequence?_eq_some_iff`, `sequence?_eq_none_iff`: The decoder reads a
  character where one is spelled, and a stray where none is.
* `isStray_stray`, `exists_stray`: The strays are those of the bytes above
  ASCII.
* `encodePoint_of_spells`, `encodePoint_stray`: The encoder writes spellings,
  and strays as their bytes.
* `encodePoint_eq_some_iff`: It writes nothing else.
* `decode_spelled`, `decode_unspelled`: The decoder takes one spelling, or one
  stray, at a time.
* `pieces_induction`: The induction that goes with it.
-/

namespace RowScope

namespace Text

/-- A code point is spelled by a lead byte and the bytes that follow it. -/
inductive Spells (c : CodePoint) (a : UInt8) : Bytes → Prop
  | one (lead : a.toNat = c.val) (below : c.val < 0x80) : Spells c a []
  | two {b : UInt8} (lead : a.toNat = 0xC0 + c.val / 64) (second : b.toNat = 0x80 + c.val % 64)
      (above : 0x80 ≤ c.val) (below : c.val < 0x800) : Spells c a [b]
  | three {b d : UInt8} (lead : a.toNat = 0xE0 + c.val / 4096)
      (second : b.toNat = 0x80 + c.val / 64 % 64) (third : d.toNat = 0x80 + c.val % 64)
      (above : 0x800 ≤ c.val) (below : c.val < 0x10000) (scalar : c.isSurrogate = false) :
      Spells c a [b, d]
  | four {b d f : UInt8} (lead : a.toNat = 0xF0 + c.val / 262144)
      (second : b.toNat = 0x80 + c.val / 4096 % 64) (third : d.toNat = 0x80 + c.val / 64 % 64)
      (fourth : f.toNat = 0x80 + c.val % 64) (above : 0x10000 ≤ c.val) : Spells c a [b, d, f]

/-! ### Ranges of bytes -/

theorem isContinuation_iff (b : UInt8) :
    isContinuation b = true ↔ 0x80 ≤ b.toNat ∧ b.toNat ≤ 0xBF := by
  rw [isContinuation, Bool.and_eq_true, decide_eq_true_eq, decide_eq_true_eq]

/-- The second of three bytes is a continuation byte. Behind the first of its
    lead bytes it must not make the number one of two bytes, and behind one
    other it must not make it a surrogate. -/
theorem isSecondOfThree_iff (a b : UInt8) :
    isSecondOfThree a b = true ↔ (0x80 ≤ b.toNat ∧ b.toNat ≤ 0xBF) ∧
      ¬ (a.toNat = 0xE0 ∧ b.toNat < 0xA0) ∧ ¬ (a.toNat = 0xED ∧ 0x9F < b.toNat) := by
  unfold isSecondOfThree
  by_cases hlow : a.toNat = 0xE0
  · rw [if_pos (beq_iff_eq.mpr hlow), Bool.and_eq_true, decide_eq_true_eq, decide_eq_true_eq]
    omega
  · rw [if_neg (fun h => hlow (beq_iff_eq.mp h))]
    by_cases hhigh : a.toNat = 0xED
    · rw [if_pos (beq_iff_eq.mpr hhigh), Bool.and_eq_true, decide_eq_true_eq, decide_eq_true_eq]
      omega
    · rw [if_neg (fun h => hhigh (beq_iff_eq.mp h)), isContinuation_iff]
      omega

/-- The second of four bytes is a continuation byte, in ranges that keep the
    number above those of three bytes and below the end of the code points. -/
theorem isSecondOfFour_iff (a b : UInt8) :
    isSecondOfFour a b = true ↔ (0x80 ≤ b.toNat ∧ b.toNat ≤ 0xBF) ∧
      ¬ (a.toNat = 0xF0 ∧ b.toNat < 0x90) ∧ ¬ (a.toNat = 0xF4 ∧ 0x8F < b.toNat) := by
  unfold isSecondOfFour
  by_cases hlow : a.toNat = 0xF0
  · rw [if_pos (beq_iff_eq.mpr hlow), Bool.and_eq_true, decide_eq_true_eq, decide_eq_true_eq]
    omega
  · rw [if_neg (fun h => hlow (beq_iff_eq.mp h))]
    by_cases hhigh : a.toNat = 0xF4
    · rw [if_pos (beq_iff_eq.mpr hhigh), Bool.and_eq_true, decide_eq_true_eq, decide_eq_true_eq]
      omega
    · rw [if_neg (fun h => hhigh (beq_iff_eq.mp h)), isContinuation_iff]
      omega

theorem isSurrogate_eq_false_iff (c : CodePoint) :
    c.isSurrogate = false ↔ c.val < 0xD800 ∨ 0xDFFF < c.val := by
  rw [CodePoint.isSurrogate, Bool.and_eq_false_iff, decide_eq_false_iff_not,
    decide_eq_false_iff_not]
  omega

theorem isStray_iff (c : CodePoint) : c.isStray = true ↔ 0xDC80 ≤ c.val ∧ c.val ≤ 0xDCFF := by
  rw [CodePoint.isStray, Bool.and_eq_true, decide_eq_true_eq, decide_eq_true_eq]

theorem ofNat_eq_iff (n : Nat) (h : n < 0x110000) (c : CodePoint) :
    CodePoint.ofNat n = c ↔ c.val = n := by
  have hval : (CodePoint.ofNat n).val = n := Nat.mod_eq_of_lt h
  rw [Fin.ext_iff, hval, eq_comm]

theorem payload_lt (b : UInt8) (hb : isContinuation b = true) : payload b < 64 := by
  rw [isContinuation_iff] at hb
  unfold payload
  omega

/-- What is spelled is no surrogate. -/
theorem Spells.scalar {c : CodePoint} {a : UInt8} {bytes : Bytes} (h : Spells c a bytes) :
    c.isSurrogate = false := by
  rw [isSurrogate_eq_false_iff]
  cases h with
  | one lead below => omega
  | two lead second above below => omega
  | three lead second third above below scalar => exact (isSurrogate_eq_false_iff c).mp scalar
  | four lead second third fourth above => omega

/-! ### Reading -/

section

variable (a : UInt8) (follow : Bytes) (c : CodePoint) (n : Nat)

theorem sequence?_one (ha : a.toNat < 0x80) :
    sequence? a follow = some (c, n) ↔ c.val = a.toNat ∧ n = 0 := by
  simp only [sequence?, ha, if_true, Option.some.injEq, Prod.mk.injEq]
  rw [ofNat_eq_iff _ (by omega), eq_comm (a := n)]

theorem sequence?_two (hlow : 0xC2 ≤ a.toNat) (hhigh : a.toNat < 0xE0) :
    sequence? a follow = some (c, n) ↔ ∃ b rest, follow = b :: rest ∧ isContinuation b = true ∧
      c.val = (a.toNat - 0xC0) * 64 + payload b ∧ n = 1 := by
  have h1 : ¬ a.toNat < 0x80 := by omega
  have h2 : ¬ a.toNat < 0xC2 := by omega
  simp only [sequence?, h1, h2, hhigh, if_false, if_true]
  rcases follow with _ | ⟨b, rest⟩
  · simp
  · rcases hb : isContinuation b with _ | _
    · simp [hb]
    · have hpayload := payload_lt b hb
      have hlt : (a.toNat - 0xC0) * 64 + payload b < 0x110000 := by omega
      simp [hb, ofNat_eq_iff _ hlt, eq_comm (a := 1)]

theorem sequence?_three (hlow : 0xE0 ≤ a.toNat) (hhigh : a.toNat < 0xF0) :
    sequence? a follow = some (c, n) ↔ ∃ b d rest, follow = b :: d :: rest ∧
      (isSecondOfThree a b = true ∧ isContinuation d = true) ∧
      c.val = (a.toNat - 0xE0) * 4096 + payload b * 64 + payload d ∧ n = 2 := by
  have h1 : ¬ a.toNat < 0x80 := by omega
  have h2 : ¬ a.toNat < 0xC2 := by omega
  have h3 : ¬ a.toNat < 0xE0 := by omega
  simp only [sequence?, h1, h2, h3, hhigh, if_false, if_true]
  rcases follow with _ | ⟨b, _ | ⟨d, rest⟩⟩
  · simp
  · simp
  · -- With two bytes behind the lead byte, the ranges decide.
    by_cases hok : isSecondOfThree a b = true ∧ isContinuation d = true
    · have hb := (isSecondOfThree_iff a b).mp hok.1
      have hd := payload_lt d hok.2
      have hlt : (a.toNat - 0xE0) * 4096 + payload b * 64 + payload d < 0x110000 := by
        unfold payload at hd ⊢
        omega
      simp only [Bool.and_eq_true, hok, and_self, if_true, Option.some.injEq, Prod.mk.injEq,
        ofNat_eq_iff _ hlt, eq_comm (a := 2)]
      constructor
      · rintro ⟨hval, hn⟩
        exact ⟨b, d, rest, rfl, hok, hval, hn⟩
      · rintro ⟨b', d', rest', hfollow, -, hval, hn⟩
        cases hfollow
        exact ⟨hval, hn⟩
    · simp only [Bool.and_eq_true, hok, if_false, reduceCtorEq, false_iff]
      rintro ⟨b', d', rest', hfollow, hok', -⟩
      cases hfollow
      exact hok hok'

theorem sequence?_four (hlow : 0xF0 ≤ a.toNat) (hhigh : a.toNat < 0xF5) :
    sequence? a follow = some (c, n) ↔ ∃ b d f rest, follow = b :: d :: f :: rest ∧
      ((isSecondOfFour a b = true ∧ isContinuation d = true) ∧ isContinuation f = true) ∧
      c.val = (a.toNat - 0xF0) * 262144 + payload b * 4096 + payload d * 64 + payload f ∧
      n = 3 := by
  have h1 : ¬ a.toNat < 0x80 := by omega
  have h2 : ¬ a.toNat < 0xC2 := by omega
  have h3 : ¬ a.toNat < 0xE0 := by omega
  have h4 : ¬ a.toNat < 0xF0 := by omega
  simp only [sequence?, h1, h2, h3, h4, hhigh, if_false, if_true]
  rcases follow with _ | ⟨b, _ | ⟨d, _ | ⟨f, rest⟩⟩⟩
  · simp
  · simp
  · simp
  · -- With three bytes behind the lead byte, the ranges decide.
    by_cases hok : (isSecondOfFour a b = true ∧ isContinuation d = true) ∧ isContinuation f = true
    · have hb := (isSecondOfFour_iff a b).mp hok.1.1
      have hd := payload_lt d hok.1.2
      have hf := payload_lt f hok.2
      have hlt : (a.toNat - 0xF0) * 262144 + payload b * 4096 + payload d * 64 + payload f <
          0x110000 := by
        unfold payload at hd hf ⊢
        omega
      simp only [Bool.and_eq_true, hok, and_self, if_true, Option.some.injEq, Prod.mk.injEq,
        ofNat_eq_iff _ hlt, eq_comm (a := 3)]
      constructor
      · rintro ⟨hval, hn⟩
        exact ⟨b, d, f, rest, rfl, hok, hval, hn⟩
      · rintro ⟨b', d', f', rest', hfollow, -, hval, hn⟩
        cases hfollow
        exact ⟨hval, hn⟩
    · simp only [Bool.and_eq_true, hok, if_false, reduceCtorEq, false_iff]
      rintro ⟨b', d', f', rest', hfollow, hok', -⟩
      cases hfollow
      exact hok hok'

/-- No character starts with a continuation byte, with one of the two lead bytes
    whose characters have a shorter spelling, or with one that would lead beyond
    the last code point. -/
theorem sequence?_none (ha : 0x80 ≤ a.toNat ∧ a.toNat < 0xC2 ∨ 0xF5 ≤ a.toNat) :
    sequence? a follow = none := by
  have h1 : ¬ a.toNat < 0x80 := by omega
  simp only [sequence?, h1, if_false]
  by_cases h2 : a.toNat < 0xC2
  · rw [if_pos h2]
  · rw [if_neg h2, if_neg (by omega), if_neg (by omega), if_neg (by omega)]

end

/-- The decoder reads a character where one is spelled, and nothing anywhere
    else. From left to right, the ranges of the bytes give the bounds on the
    number that its spelling asks for. From right to left, the number and its
    bounds give the ranges. -/
theorem sequence?_eq_some_iff (a : UInt8) (follow : Bytes) (c : CodePoint) (n : Nat) :
    sequence? a follow = some (c, n) ↔
      ∃ bytes rest, follow = bytes ++ rest ∧ n = bytes.length ∧ Spells c a bytes := by
  have hlt := c.isLt
  constructor
  · intro h
    -- The cases are the lengths of spellings, which the lead byte tells.
    by_cases h1 : a.toNat < 0x80
    · rcases (sequence?_one a follow c n h1).mp h with ⟨hval, rfl⟩
      exact ⟨[], follow, rfl, rfl, .one hval.symm (by omega)⟩
    · by_cases hnone : a.toNat < 0xC2 ∨ 0xF5 ≤ a.toNat
      · rw [sequence?_none a follow (by omega)] at h
        cases h
      · by_cases h2 : a.toNat < 0xE0
        · rcases (sequence?_two a follow c n (by omega) h2).mp h with ⟨b, rest, rfl, hb, hval, rfl⟩
          have hb := (isContinuation_iff b).mp hb
          unfold payload at hval
          exact ⟨[b], rest, rfl, rfl, .two (by omega) (by omega) (by omega) (by omega)⟩
        · by_cases h3 : a.toNat < 0xF0
          · rcases (sequence?_three a follow c n (by omega) h3).mp h with
              ⟨b, d, rest, rfl, ⟨hb, hd⟩, hval, rfl⟩
            have hb := (isSecondOfThree_iff a b).mp hb
            have hd := (isContinuation_iff d).mp hd
            unfold payload at hval
            -- The narrower ranges keep the number above those of two bytes and
            -- off the surrogates.
            have hscalar : c.isSurrogate = false := (isSurrogate_eq_false_iff c).mpr (by omega)
            exact ⟨[b, d], rest, rfl, rfl,
              .three (by omega) (by omega) (by omega) (by omega) (by omega) hscalar⟩
          · rcases (sequence?_four a follow c n (by omega) (by omega)).mp h with
              ⟨b, d, f, rest, rfl, ⟨⟨hb, hd⟩, hf⟩, hval, rfl⟩
            have hb := (isSecondOfFour_iff a b).mp hb
            have hd := (isContinuation_iff d).mp hd
            have hf := (isContinuation_iff f).mp hf
            unfold payload at hval
            exact ⟨[b, d, f], rest, rfl, rfl,
              .four (by omega) (by omega) (by omega) (by omega) (by omega)⟩
  · rintro ⟨bytes, rest, rfl, rfl, h⟩
    cases h with
    | one lead below => exact (sequence?_one a _ c 0 (by omega)).mpr ⟨lead.symm, rfl⟩
    | @two b lead second above below =>
        have hb : isContinuation b = true := (isContinuation_iff b).mpr (by omega)
        refine (sequence?_two a _ c 1 (by omega) (by omega)).mpr ⟨b, rest, rfl, hb, ?_, rfl⟩
        unfold payload
        omega
    | @three b d lead second third above below scalar =>
        -- That it is no surrogate is what makes the second byte small behind
        -- one lead byte.
        have hscalar := (isSurrogate_eq_false_iff c).mp scalar
        have hb : isSecondOfThree a b = true := (isSecondOfThree_iff a b).mpr (by omega)
        have hd : isContinuation d = true := (isContinuation_iff d).mpr (by omega)
        refine (sequence?_three a _ c 2 (by omega) (by omega)).mpr
          ⟨b, d, rest, rfl, ⟨hb, hd⟩, ?_, rfl⟩
        unfold payload
        omega
    | @four b d f lead second third fourth above =>
        have hb : isSecondOfFour a b = true := (isSecondOfFour_iff a b).mpr (by omega)
        have hd : isContinuation d = true := (isContinuation_iff d).mpr (by omega)
        have hf : isContinuation f = true := (isContinuation_iff f).mpr (by omega)
        refine (sequence?_four a _ c 3 (by omega) (by omega)).mpr
          ⟨b, d, f, rest, rfl, ⟨⟨hb, hd⟩, hf⟩, ?_, rfl⟩
        unfold payload
        omega

/-- A byte goes astray where no character is spelled. It does not matter which
    of the rules is broken, or whether there are too few bytes. -/
theorem sequence?_eq_none_iff (a : UInt8) (follow : Bytes) :
    sequence? a follow = none ↔ ∀ c bytes rest, follow = bytes ++ rest → ¬ Spells c a bytes := by
  constructor
  · intro h c bytes rest hfollow hspells
    rw [(sequence?_eq_some_iff a follow c bytes.length).mpr ⟨bytes, rest, hfollow, rfl, hspells⟩]
      at h
    cases h
  · intro h
    rcases hseq : sequence? a follow with _ | ⟨c, n⟩
    · rfl
    · rcases (sequence?_eq_some_iff a follow c n).mp hseq with ⟨bytes, rest, hfollow, -, hspells⟩
      exact absurd hspells (h c bytes rest hfollow)

/-! ### Writing -/

theorem ofNat_eq_byte (n : Nat) (b : UInt8) (h : b.toNat = n) : UInt8.ofNat n = b := by
  rw [← h, UInt8.ofNat_toNat]

/-- A code point is written as it is spelled. The encoder asks for the same
    bounds in the same order, so that its cases are those of the spellings. -/
theorem encodePoint_of_spells {c : CodePoint} {a : UInt8} {bytes : Bytes} (h : Spells c a bytes) :
    encodePoint c = some (a :: bytes) := by
  have hscalar := h.scalar
  -- No stray is spelled, so the encoder goes by the bounds alone.
  have hstray : ¬ c.isStray = true := by
    have hrange := (isSurrogate_eq_false_iff c).mp hscalar
    rw [isStray_iff]
    omega
  simp only [encodePoint, hscalar, hstray, Bool.false_eq_true, if_false]
  cases h with
  | one lead below =>
      rw [if_pos below, ofNat_eq_byte _ a lead]
  | @two b lead second above below =>
      rw [if_neg (by omega), if_pos below, ofNat_eq_byte _ a lead, ofNat_eq_byte _ b second]
  | @three b d lead second third above below scalar =>
      rw [if_neg (by omega), if_neg (by omega), if_pos below, ofNat_eq_byte _ a lead,
        ofNat_eq_byte _ b second, ofNat_eq_byte _ d third]
  | @four b d f lead second third fourth above =>
      rw [if_neg (by omega), if_neg (by omega), if_neg (by omega), ofNat_eq_byte _ a lead,
        ofNat_eq_byte _ b second, ofNat_eq_byte _ d third, ofNat_eq_byte _ f fourth]

/-- Every code point but the surrogates has a spelling. -/
theorem exists_spells (c : CodePoint) (hc : c.isSurrogate = false) :
    ∃ a bytes, Spells c a bytes := by
  have hlt := c.isLt
  have byte : ∀ n, n < 256 → (UInt8.ofNat n).toNat = n := fun n hn =>
    UInt8.toNat_ofNat_of_lt' hn
  by_cases h1 : c.val < 0x80
  · exact ⟨_, _, .one (byte _ (by omega)) h1⟩
  · by_cases h2 : c.val < 0x800
    · exact ⟨_, _, .two (byte _ (by omega)) (byte _ (by omega)) (by omega) h2⟩
    · by_cases h3 : c.val < 0x10000
      · exact ⟨_, _, .three (byte _ (by omega)) (byte _ (by omega)) (byte _ (by omega)) (by omega)
          h3 hc⟩
      · exact ⟨_, _, .four (byte _ (by omega)) (byte _ (by omega)) (byte _ (by omega))
          (byte _ (by omega)) (by omega)⟩

/-- The bytes above ASCII have strays. -/
theorem isStray_stray (b : UInt8) (hb : 0x80 ≤ b.toNat) : (CodePoint.stray b).isStray = true := by
  have hlt := b.toNat_lt
  have hval : (CodePoint.stray b).val = 0xDC00 + b.toNat := rfl
  rw [isStray_iff, hval]
  omega

/-- And there are no other strays. -/
theorem exists_stray (c : CodePoint) (hc : c.isStray = true) :
    ∃ b : UInt8, 0x80 ≤ b.toNat ∧ c = CodePoint.stray b := by
  rw [isStray_iff] at hc
  have hb : (UInt8.ofNat (c.val - 0xDC00)).toNat = c.val - 0xDC00 :=
    UInt8.toNat_ofNat_of_lt' (by show _ < 256; omega)
  have hval : (CodePoint.stray (UInt8.ofNat (c.val - 0xDC00))).val =
      0xDC00 + (UInt8.ofNat (c.val - 0xDC00)).toNat := rfl
  exact ⟨UInt8.ofNat (c.val - 0xDC00), by omega, Fin.ext (by omega)⟩

theorem encodePoint_stray (b : UInt8) (hb : 0x80 ≤ b.toNat) :
    encodePoint (CodePoint.stray b) = some [b] := by
  have hlt := b.toNat_lt
  have hval : (CodePoint.stray b).val = 0xDC00 + b.toNat := rfl
  simp only [encodePoint, isStray_stray b hb, if_true, hval]
  rw [if_neg (by omega), if_neg (by omega), ofNat_eq_byte _ b (by omega)]

/-- A code point of ASCII is written as its byte. -/
theorem encodePoint_ascii (c : CodePoint) (hc : c.val < 0x80) :
    encodePoint c = some [UInt8.ofNat c.val] :=
  encodePoint_of_spells (.one (UInt8.toNat_ofNat_of_lt' (Nat.lt_trans hc (by decide))) hc)

/-- The encoder writes spellings and the bytes of strays, and nothing else. No
    proof about the encoder looks into it beyond this point. -/
theorem encodePoint_eq_some_iff (c : CodePoint) (head : Bytes) :
    encodePoint c = some head ↔ (∃ a follow, head = a :: follow ∧ Spells c a follow) ∨
      ∃ b : UInt8, 0x80 ≤ b.toNat ∧ c = CodePoint.stray b ∧ head = [b] := by
  constructor
  · intro h
    rcases hsurrogate : c.isSurrogate with _ | _
    · rcases exists_spells c hsurrogate with ⟨a, follow, hspells⟩
      rw [encodePoint_of_spells hspells, Option.some.injEq] at h
      exact Or.inl ⟨a, follow, h.symm, hspells⟩
    · rcases hstray : c.isStray with _ | _
      · -- A surrogate is above the points of one and two bytes, so any other is
        -- refused.
        have hrange := hsurrogate
        rw [CodePoint.isSurrogate, Bool.and_eq_true, decide_eq_true_eq, decide_eq_true_eq]
          at hrange
        simp only [encodePoint, hsurrogate, hstray, Bool.false_eq_true, if_false, if_true] at h
        rw [if_neg (by omega), if_neg (by omega)] at h
        cases h
      · rcases exists_stray c hstray with ⟨b, hb, rfl⟩
        rw [encodePoint_stray b hb, Option.some.injEq] at h
        exact Or.inr ⟨b, hb, rfl, h.symm⟩
  · rintro (⟨a, follow, rfl, hspells⟩ | ⟨b, hb, rfl, rfl⟩)
    · exact encodePoint_of_spells hspells
    · exact encodePoint_stray b hb

/-! ### Piece by piece -/

/-- A byte that goes astray is above ASCII. -/
theorem high_of_unspelled (a : UInt8) (follow : Bytes) (h : sequence? a follow = none) :
    0x80 ≤ a.toNat := by
  rcases Nat.lt_or_ge a.toNat 0x80 with hlow | hhigh
  · exfalso
    have hone := (sequence?_one a follow (CodePoint.ofNat a.toNat) 0 hlow).mpr
      ⟨(ofNat_eq_iff _ (by omega) _).mp rfl, rfl⟩
    rw [h] at hone
    cases hone
  · exact hhigh

/-- To skip bytes is to decode what is left without them. The decoder counts
    down the bytes of a character that it has read already, instead of taking
    them away. -/
theorem decodeAfter_eq_decode (skip : Nat) (bytes : Bytes) :
    decodeAfter skip bytes = decode (bytes.drop skip) := by
  induction bytes generalizing skip with
  | nil =>
      rw [List.drop_nil]
      cases skip with
      | zero => rfl
      | succ k => rfl
  | cons a rest ih =>
      cases skip with
      | zero => rfl
      | succ k => rw [decodeAfter, ih k, List.drop_succ_cons]

/-- A spelling is decoded to its code point, whatever follows it. -/
theorem decode_spelled {c : CodePoint} {a : UInt8} {bytes : Bytes} (h : Spells c a bytes)
    (rest : Bytes) : decode (a :: (bytes ++ rest)) = c :: decode rest := by
  have hseq : sequence? a (bytes ++ rest) = some (c, bytes.length) :=
    (sequence?_eq_some_iff a _ c _).mpr ⟨bytes, rest, rfl, rfl, h⟩
  simp only [decode, decodeAfter, hseq]
  rw [decodeAfter_eq_decode, List.drop_left]
  rfl

/-- A byte at which no character is spelled becomes a stray, and decoding goes
    on with the next byte. -/
theorem decode_unspelled {a : UInt8} {follow : Bytes} (h : sequence? a follow = none) :
    decode (a :: follow) = CodePoint.stray a :: decode follow := by
  simp only [decode, decodeAfter, h]

/-- Bytes are taken apart as the decoder does: at the head either a character is
    spelled or a byte goes astray. What is left is shorter in both cases, and
    everything about decoding is shown by this induction. -/
@[elab_as_elim]
theorem pieces_induction {motive : Bytes → Prop} (bytes : Bytes) (nil : motive [])
    (spelled : ∀ (c : CodePoint) (a : UInt8) (follow rest : Bytes), Spells c a follow →
      motive rest → motive (a :: (follow ++ rest)))
    (unspelled : ∀ (a : UInt8) (rest : Bytes), sequence? a rest = none → motive rest →
      motive (a :: rest)) : motive bytes := by
  -- On the number of bytes, since a character takes several at once.
  induction hn : bytes.length using Nat.strongRecOn generalizing bytes with
  | _ n ih =>
      cases bytes with
      | nil => exact nil
      | cons a follow =>
          rw [List.length_cons] at hn
          rcases hseq : sequence? a follow with _ | ⟨c, taken⟩
          · exact unspelled a follow hseq (ih follow.length (by omega) follow rfl)
          · rcases (sequence?_eq_some_iff a follow c taken).mp hseq with
              ⟨bytes, rest, rfl, -, hspells⟩
            rw [List.length_append] at hn
            exact spelled c a bytes rest hspells (ih rest.length (by omega) rest rfl)

end Text

end RowScope
