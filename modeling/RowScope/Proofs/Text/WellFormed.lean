import RowScope.Proofs.Text.RoundTrip

/-!
# Well-Formed Bytes

Which bytes are UTF-8, and that decoding tells them from the others. The rules
of the format give ranges of bytes: a lead byte says how many bytes follow,
these are continuation bytes, and behind four of the lead bytes the first of
them has a narrower range. That is how longer forms than needed, surrogates, and
numbers beyond the last code point are kept out; what is cut short has too few
bytes to begin with.

The same bytes are described from the other side by what writes them, which is
the encoding of characters in the standard library. Neither of the two says
anything about the decoder. It yields a stray wherever the bytes leave the
rules, so that a text without strays comes from bytes that follow them
throughout, and is then the text of the characters that they encode.

## Main definitions

* `Text.IsSequence`: The bytes of one character, by ranges.
* `Text.IsWellFormed`: Bytes that are such sequences one after the other.

## Theorems

* `isSequence_iff`: A sequence spells a character.
* `utf8EncodeChar_of_spells`: A character is written as it is spelled.
* `decode_chars`: Written characters are decoded.
* `isWellFormed_iff_chars`: What is well-formed was written by characters.
* `strayless_iff`: Only well-formed bytes are decoded without strays.
* `decoded_wellFormed`: All of this about one string of bytes.
-/

namespace RowScope

/-- A stray is a surrogate. -/
theorem CodePoint.isStray_of_not_isSurrogate (c : CodePoint) (hc : c.isSurrogate = false) :
    c.isStray = false := by
  have hrange := (Text.isSurrogate_eq_false_iff c).mp hc
  rw [← Bool.not_eq_true, Text.isStray_iff]
  omega

namespace Text

/-- The bytes of one character, by ranges. -/
inductive IsSequence : Bytes → Prop
  | one {a : UInt8} (lead : a.toNat < 0x80) : IsSequence [a]
  | two {a b : UInt8} (lead : 0xC2 ≤ a.toNat ∧ a.toNat ≤ 0xDF)
      (second : isContinuation b = true) : IsSequence [a, b]
  | three {a b d : UInt8} (lead : 0xE0 ≤ a.toNat ∧ a.toNat ≤ 0xEF)
      (second : isContinuation b = true) (third : isContinuation d = true)
      (shortest : a.toNat = 0xE0 → 0xA0 ≤ b.toNat)
      (scalar : a.toNat = 0xED → b.toNat ≤ 0x9F) : IsSequence [a, b, d]
  | four {a b d f : UInt8} (lead : 0xF0 ≤ a.toNat ∧ a.toNat ≤ 0xF4)
      (second : isContinuation b = true) (third : isContinuation d = true)
      (fourth : isContinuation f = true) (shortest : a.toNat = 0xF0 → 0x90 ≤ b.toNat)
      (bounded : a.toNat = 0xF4 → b.toNat ≤ 0x8F) : IsSequence [a, b, d, f]

/-- Bytes that are the bytes of characters, one after the other. -/
inductive IsWellFormed : Bytes → Prop
  | nil : IsWellFormed []
  | append {bytes rest : Bytes} (first : IsSequence bytes) (others : IsWellFormed rest) :
      IsWellFormed (bytes ++ rest)

/-! ### The ranges and the spellings -/

/-- What the decoder reads to the end is a spelling. -/
theorem spells_of_read {a : UInt8} {follow : Bytes} {c : CodePoint}
    (h : sequence? a follow = some (c, follow.length)) : Spells c a follow := by
  rcases (sequence?_eq_some_iff a follow c follow.length).mp h with
    ⟨bytes, rest, hfollow, hlength, hspells⟩
  have hrest : rest = [] := by
    rw [hfollow, List.length_append] at hlength
    exact List.eq_nil_of_length_eq_zero (by omega)
  rw [hfollow, hrest, List.append_nil]
  exact hspells

/-- A sequence spells a character. From the ranges the number is computed that
    the decoder would read, and from the spelling the ranges follow by
    arithmetic. -/
theorem isSequence_iff (a : UInt8) (follow : Bytes) :
    IsSequence (a :: follow) ↔ ∃ c, Spells c a follow := by
  have hlt := a.toNat_lt
  constructor
  · intro h
    cases h with
    | one lead =>
        -- The number is that of the lead byte and the payloads, and it is
        -- within the code points.
        have hval := (ofNat_eq_iff a.toNat (by omega) _).mp rfl
        exact ⟨_, spells_of_read ((sequence?_one a [] _ 0 lead).mpr ⟨hval, rfl⟩)⟩
    | @two _ b lead second =>
        have hb := payload_lt b second
        have hval := (ofNat_eq_iff ((a.toNat - 0xC0) * 64 + payload b) (by omega) _).mp rfl
        exact ⟨_, spells_of_read ((sequence?_two a [b] _ 1 lead.1 (by omega)).mpr
          ⟨b, [], rfl, second, hval, rfl⟩)⟩
    | @three _ b d lead second third shortest scalar =>
        have hb := (isContinuation_iff b).mp second
        have hd := payload_lt d third
        have hsecond := (isSecondOfThree_iff a b).mpr ⟨hb, by omega, by omega⟩
        have hval := (ofNat_eq_iff ((a.toNat - 0xE0) * 4096 + payload b * 64 + payload d)
          (by unfold payload at hd ⊢; omega) _).mp rfl
        exact ⟨_, spells_of_read ((sequence?_three a [b, d] _ 2 lead.1 (by omega)).mpr
          ⟨b, d, [], rfl, ⟨hsecond, third⟩, hval, rfl⟩)⟩
    | @four _ b d f lead second third fourth shortest bounded =>
        have hb := (isContinuation_iff b).mp second
        have hd := payload_lt d third
        have hf := payload_lt f fourth
        have hsecond := (isSecondOfFour_iff a b).mpr ⟨hb, by omega, by omega⟩
        have hval := (ofNat_eq_iff ((a.toNat - 0xF0) * 262144 + payload b * 4096 + payload d * 64 +
          payload f) (by unfold payload at hd hf ⊢; omega) _).mp rfl
        exact ⟨_, spells_of_read ((sequence?_four a [b, d, f] _ 3 lead.1 (by omega)).mpr
          ⟨b, d, f, [], rfl, ⟨⟨hsecond, third⟩, fourth⟩, hval, rfl⟩)⟩
  · rintro ⟨c, h⟩
    have hc := c.isLt
    have continues : ∀ b : UInt8, 0x80 ≤ b.toNat ∧ b.toNat ≤ 0xBF → isContinuation b = true :=
      fun b hb => (isContinuation_iff b).mpr hb
    cases h with
    | one lead below => exact .one (by omega)
    | two lead second above below => exact .two (by omega) (continues _ (by omega))
    | three lead second third above below scalar =>
        have hscalar := (isSurrogate_eq_false_iff c).mp scalar
        exact .three (by omega) (continues _ (by omega)) (continues _ (by omega)) (by omega)
          (by omega)
    | four lead second third fourth above =>
        exact .four (by omega) (continues _ (by omega)) (continues _ (by omega))
          (continues _ (by omega)) (by omega) (by omega)

/-- A character is written as it is spelled. The library adds the mark of each
    byte to a quotient or a remainder of the scalar, so that a byte is compared
    with its share of the scalar; the bounds of the four lengths are the same on
    both sides, and so only the branch of the same length is left in each
    case. -/
theorem utf8EncodeChar_of_spells {c : Char} {a : UInt8} {follow : Bytes}
    (h : Spells (CodePoint.ofChar c) a follow) : String.utf8EncodeChar c = a :: follow := by
  have hval : (CodePoint.ofChar c).val = c.val.toNat := rfl
  have hlt := (CodePoint.ofChar c).isLt
  simp only [String.utf8EncodeChar]
  cases h with
  | one lead below =>
      rw [if_pos (by omega), ofNat_eq_byte _ a (by omega)]
  | @two b lead second above below =>
      rw [if_neg (by omega), if_pos (by omega), ofNat_eq_byte _ a (by omega),
        ofNat_eq_byte _ b (by omega)]
  | @three b d lead second third above below scalar =>
      rw [if_neg (by omega), if_neg (by omega), if_pos (by omega), ofNat_eq_byte _ a (by omega),
        ofNat_eq_byte _ b (by omega), ofNat_eq_byte _ d (by omega)]
  | @four b d f lead second third fourth above =>
      rw [if_neg (by omega), if_neg (by omega), if_neg (by omega), ofNat_eq_byte _ a (by omega),
        ofNat_eq_byte _ b (by omega), ofNat_eq_byte _ d (by omega), ofNat_eq_byte _ f (by omega)]

/-- Every character has a spelling, which is what it is written as. -/
theorem char_spelled (c : Char) :
    ∃ a follow, String.utf8EncodeChar c = a :: follow ∧ Spells (CodePoint.ofChar c) a follow := by
  rcases exists_spells _ (ofChar_not_surrogate c) with ⟨a, follow, h⟩
  exact ⟨a, follow, utf8EncodeChar_of_spells h, h⟩

/-! ### Well-formed bytes and characters -/

/-- Written characters are decoded. -/
theorem decode_chars (cs : List Char) :
    decode (cs.flatMap String.utf8EncodeChar) = ofChars cs := by
  induction cs with
  | nil => rfl
  | cons c rest ih =>
      rcases char_spelled c with ⟨a, follow, hwritten, hspells⟩
      rw [List.flatMap_cons, hwritten, List.cons_append, decode_spelled hspells, ih]
      rfl

/-- What is well-formed was written by characters. Every sequence spells one
    character and every character is written as one sequence, so both sides are
    taken apart at the same places. -/
theorem isWellFormed_iff_chars (bytes : Bytes) :
    IsWellFormed bytes ↔ ∃ cs : List Char, cs.flatMap String.utf8EncodeChar = bytes := by
  constructor
  · intro h
    induction h with
    | nil => exact ⟨[], rfl⟩
    | @append bytes rest first others ih =>
        rcases ih with ⟨cs, hcs⟩
        rcases bytes with _ | ⟨a, follow⟩
        · cases first
        · -- The first sequence is the first character, and the rest is known by
          -- induction.
          rcases (isSequence_iff a follow).mp first with ⟨c, hspells⟩
          rcases c.exists_char hspells.scalar with ⟨ch, rfl⟩
          exact ⟨ch :: cs, by rw [List.flatMap_cons, hcs, utf8EncodeChar_of_spells hspells]⟩
  · rintro ⟨cs, rfl⟩
    induction cs with
    | nil => exact .nil
    | cons c rest ih =>
        rcases char_spelled c with ⟨a, follow, hwritten, hspells⟩
        rw [List.flatMap_cons, hwritten]
        exact .append ((isSequence_iff a follow).mpr ⟨_, hspells⟩) ih

/-- Only well-formed bytes are decoded without strays. So the strays of a
    decoded text tell whether its bytes were UTF-8, although they do not tell
    where the rules were broken. -/
theorem strayless_iff (bytes : Bytes) :
    (∀ c ∈ decode bytes, c.isStray = false) ↔ IsWellFormed bytes := by
  constructor
  · intro h
    -- Where a byte goes astray its stray is in the text, so every piece is a
    -- spelling.
    induction bytes using pieces_induction with
    | nil => exact .nil
    | spelled c a follow rest hspells ih =>
        rw [decode_spelled hspells] at h
        exact .append ((isSequence_iff a follow).mpr ⟨c, hspells⟩)
          (ih fun point hpoint => h point (List.mem_cons_of_mem c hpoint))
    | unspelled a rest hnone ih =>
        rw [decode_unspelled hnone] at h
        have hstray := h _ List.mem_cons_self
        rw [isStray_of_unspelled a rest hnone] at hstray
        cases hstray
  · intro h c hc
    rcases (isWellFormed_iff_chars bytes).mp h with ⟨cs, rfl⟩
    rw [decode_chars] at hc
    rcases List.mem_map.mp hc with ⟨ch, -, rfl⟩
    exact CodePoint.isStray_of_not_isSurrogate _ (ofChar_not_surrogate ch)

/-- A decoded text consists of characters and strays, and has no strays if and
    only if the bytes are well-formed. These are the bytes that characters are
    written as, and then the text is that of the characters.

    Of the four parts, the first and the second are about the decoder, and the
    third says without it what well-formed bytes are. The last one then leaves
    nothing open: it says which text there is. -/
theorem decoded_wellFormed (bytes : Bytes) :
    (∀ c ∈ decode bytes, c.isSurrogate = false ∨ c.isStray = true) ∧
      ((∀ c ∈ decode bytes, c.isStray = false) ↔ IsWellFormed bytes) ∧
      (IsWellFormed bytes ↔ ∃ cs : List Char, cs.flatMap String.utf8EncodeChar = bytes) ∧
      ∀ cs : List Char, cs.flatMap String.utf8EncodeChar = bytes → decode bytes = ofChars cs := by
  refine ⟨fun c hc => ?_, strayless_iff bytes, isWellFormed_iff_chars bytes, ?_⟩
  · rcases hsurrogate : c.isSurrogate with _ | _
    · exact Or.inl rfl
    · exact Or.inr (decode_isEncodable bytes c hc hsurrogate)
  · rintro cs rfl
    exact decode_chars cs

/-- A character of two bytes, one of three and one of four. -/
theorem decoded_wellFormed_longest :
    ['é', '€', '😀'].flatMap String.utf8EncodeChar =
        [0xC3, 0xA9, 0xE2, 0x82, 0xAC, 0xF0, 0x9F, 0x98, 0x80] ∧
      decode [0xC3, 0xA9, 0xE2, 0x82, 0xAC, 0xF0, 0x9F, 0x98, 0x80] =
        ofChars ['é', '€', '😀'] := by
  have written : ['é', '€', '😀'].flatMap String.utf8EncodeChar =
      [0xC3, 0xA9, 0xE2, 0x82, 0xAC, 0xF0, 0x9F, 0x98, 0x80] := by
    decide
  exact ⟨written, (decoded_wellFormed _).2.2.2 _ written⟩

end Text

end RowScope
