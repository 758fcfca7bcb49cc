import RowScope.Proofs.Text.Decoding

/-!
# Round Trips of the Codec

Nothing is lost between bytes and text. Any bytes that were decoded can be
encoded, and come back as they were, whether they are UTF-8 or not; and any text
of characters that was encoded comes back when it is decoded. A text with strays
need not come back, since the strays of a well-formed sequence decode to the
character it spells.

## Theorems

* `encode_cons`, `encode_append`: The bytes of a text, piece by piece.
* `encode_decode`: Bytes come back.
* `decode_encode`: Texts of characters come back.
* `encode_eq_none_iff`: What cannot be encoded.
-/

namespace RowScope

namespace Text

theorem encode_cons {c : CodePoint} {t : Text} {head tail : Bytes} (hc : encodePoint c = some head)
    (ht : encode t = some tail) : encode (c :: t) = some (head ++ tail) := by
  simp only [encode, hc, ht, Option.bind_eq_bind, Option.bind_some, Option.pure_def]

theorem encode_append {s t : Text} {a b : Bytes} (hs : encode s = some a) (ht : encode t = some b) :
    encode (s ++ t) = some (a ++ b) := by
  induction s generalizing a with
  | nil =>
      rw [show a = [] from (Option.some.inj hs).symm]
      exact ht
  | cons c rest ih =>
      rw [encode] at hs
      simp only [Option.bind_eq_bind, Option.bind_eq_some_iff, Option.pure_def,
        Option.some.injEq] at hs
      rcases hs with ⟨head, hhead, tail, htail, rfl⟩
      rw [List.cons_append, List.append_assoc]
      exact encode_cons hhead (ih htail)

/-- Decoded bytes are encoded as they were. The text is put together from
    characters and strays, and each of them is encoded as the bytes it came
    from, so the bytes are put together again piece by piece. -/
theorem encode_decode (bytes : Bytes) : encode (decode bytes) = some bytes := by
  induction bytes using pieces_induction with
  | nil => rfl
  | spelled c a follow rest hspells ih =>
      rw [decode_spelled hspells]
      exact encode_cons (encodePoint_of_spells hspells) ih
  | unspelled a rest hnone ih =>
      rw [decode_unspelled hnone]
      exact encode_cons (encodePoint_stray a (high_of_unspelled a rest hnone)) ih

/-- An encoded text without surrogates is decoded as it was. Strays are left out
    here: each of them comes back alone, but several of them may be the bytes of
    one character. -/
theorem decode_encode (t : Text) (ht : ∀ c ∈ t, c.isSurrogate = false) :
    ∃ bytes, encode t = some bytes ∧ decode bytes = t := by
  induction t with
  | nil => exact ⟨[], rfl, rfl⟩
  | cons c rest ih =>
      rcases ih (fun x hx => ht x (List.mem_cons_of_mem c hx)) with ⟨tail, htail, hdecode⟩
      rcases exists_spells c (ht c List.mem_cons_self) with ⟨a, follow, hspells⟩
      refine ⟨a :: follow ++ tail, encode_cons (encodePoint_of_spells hspells) htail, ?_⟩
      rw [List.cons_append, decode_spelled hspells, hdecode]

/-- A text cannot be encoded if and only if it has a surrogate that is no stray.
    There is no other failure, so whatever the bytes were, no text that was
    decoded fails to be encoded. -/
theorem encode_eq_none_iff (t : Text) :
    encode t = none ↔ ∃ c ∈ t, c.isSurrogate = true ∧ c.isStray = false := by
  have hsome := encode_isSome_iff t
  constructor
  · intro hnone
    -- If every surrogate were a stray the text could be encoded.
    refine Classical.byContradiction fun hall => ?_
    have hencodable : t.IsEncodable := by
      intro c hc hsurrogate
      rcases hstray : c.isStray with _ | _
      · exact absurd ⟨c, hc, hsurrogate, hstray⟩ hall
      · rfl
    rw [← hsome, hnone] at hencodable
    exact Bool.noConfusion hencodable
  · rintro ⟨c, hc, hsurrogate, hstray⟩
    rcases h : encode t with _ | bytes
    · rfl
    · rw [h, Option.isSome_some] at hsome
      rw [hsome.mp rfl c hc hsurrogate] at hstray
      exact Bool.noConfusion hstray

end Text

end RowScope
