import RowScope.Proofs.Text.Sequence

/-!
# Decoded Texts

What decoding yields, whatever the bytes: the code points of characters, and
strays in place of the bytes that belong to none. No other surrogate ever
occurs, which is what makes every decoded text one that can be encoded. The
other texts that can be encoded are those of characters.

That no sequence the decoder reads is a surrogate is a matter of what it reads,
which is the spellings of characters and nothing else.

## Main definitions

* `Text.IsEncodable`: A text without surrogates but strays.

## Theorems

* `isStray_of_unspelled`: A byte that goes astray becomes a stray.
* `decode_isEncodable`: Decoding yields no surrogates but strays.
* `encode_isSome_iff`: A text can be encoded if and only if it has none.
* `ofChars_isEncodable`: Neither have texts of characters.
* `CodePoint.exists_char`, `Text.ofChars_inj`: Code points and texts of
  characters.
-/

namespace RowScope

namespace Text

/-- A text without surrogates but strays. -/
def IsEncodable (t : Text) : Prop :=
  ∀ c ∈ t, c.isSurrogate = true → c.isStray = true

/-- The bytes that go astray are above ASCII, and so are strays. -/
theorem isStray_of_unspelled (a : UInt8) (follow : Bytes) (h : sequence? a follow = none) :
    (CodePoint.stray a).isStray = true :=
  isStray_stray a (high_of_unspelled a follow h)

/-- Decoding yields no surrogates but strays, whatever the bytes. A character
    that is spelled is none, and a byte that goes astray becomes a stray. -/
theorem decode_isEncodable (bytes : Bytes) : (decode bytes).IsEncodable := by
  induction bytes using pieces_induction with
  | nil =>
      intro c hc
      exact absurd hc List.not_mem_nil
  | spelled c a follow rest hspells ih =>
      rw [decode_spelled hspells]
      intro point hmem hsurrogate
      rcases List.mem_cons.mp hmem with rfl | hmem
      · rw [hspells.scalar] at hsurrogate
        exact Bool.noConfusion hsurrogate
      · exact ih point hmem hsurrogate
  -- The only surrogates come from bytes that spell nothing.
  | unspelled a rest hnone ih =>
      rw [decode_unspelled hnone]
      intro point hmem hsurrogate
      rcases List.mem_cons.mp hmem with rfl | hmem
      · exact isStray_of_unspelled a rest hnone
      · exact ih point hmem hsurrogate

theorem encodePoint_isSome_iff (c : CodePoint) :
    (encodePoint c).isSome = true ↔ (c.isSurrogate = true → c.isStray = true) := by
  rw [Option.isSome_iff_exists]
  constructor
  · rintro ⟨head, hhead⟩ hsurrogate
    rcases (encodePoint_eq_some_iff c head).mp hhead with ⟨a, follow, -, hspells⟩ | ⟨b, hb, rfl, -⟩
    · rw [hspells.scalar] at hsurrogate
      exact Bool.noConfusion hsurrogate
    · exact isStray_stray b hb
  · intro h
    rcases hsurrogate : c.isSurrogate with _ | _
    · rcases exists_spells c hsurrogate with ⟨a, follow, hspells⟩
      exact ⟨_, encodePoint_of_spells hspells⟩
    · rcases exists_stray c (h hsurrogate) with ⟨b, hb, rfl⟩
      exact ⟨_, encodePoint_stray b hb⟩

/-- A text can be encoded if and only if it has no surrogates but strays. It is
    encoded one code point after the other, and one that cannot be encoded
    spoils the whole text. -/
theorem encode_isSome_iff (t : Text) : (encode t).isSome = true ↔ t.IsEncodable := by
  induction t with
  | nil => exact ⟨fun _ c hc => absurd hc List.not_mem_nil, fun _ => rfl⟩
  | cons c rest ih =>
      have hcons : IsEncodable (c :: rest) ↔
          (c.isSurrogate = true → c.isStray = true) ∧ IsEncodable rest := List.forall_mem_cons
      rw [hcons, ← ih, ← encodePoint_isSome_iff, encode]
      rcases encodePoint c with _ | head
      · simp only [Option.bind_eq_bind, Option.bind_none, Option.isSome_none, Bool.false_eq_true,
          false_and]
      · rcases encode rest with _ | tail
        · simp only [Option.bind_eq_bind, Option.bind_some, Option.bind_none, Option.isSome_none,
            Bool.false_eq_true, and_false]
        · simp only [Option.bind_eq_bind, Option.bind_some, Option.pure_def, Option.isSome_some,
            and_self]

/-! ### Characters -/

theorem ofChar_not_surrogate (c : Char) : (CodePoint.ofChar c).isSurrogate = false := by
  have hvalid := c.valid
  simp only [UInt32.isValidChar, Nat.isValidChar] at hvalid
  have hval : (CodePoint.ofChar c).val = c.val.toNat := rfl
  rw [CodePoint.isSurrogate, Bool.and_eq_false_iff, decide_eq_false_iff_not,
    decide_eq_false_iff_not, hval]
  omega

/-- A text of characters has no surrogates. -/
theorem ofChars_isEncodable (cs : List Char) : (ofChars cs).IsEncodable := by
  intro point hmem hsurrogate
  rcases List.mem_map.mp hmem with ⟨c, -, rfl⟩
  rw [ofChar_not_surrogate c] at hsurrogate
  exact Bool.noConfusion hsurrogate

end Text

namespace CodePoint

/-- Every code point but the surrogates is that of a character. -/
theorem exists_char (c : CodePoint) (hc : c.isSurrogate = false) : ∃ ch : Char, ofChar ch = c := by
  have hrange := (Text.isSurrogate_eq_false_iff c).mp hc
  have hlt := c.isLt
  have hvalid : c.val.isValidChar := by
    rw [Nat.isValidChar]
    omega
  exact ⟨Char.ofNatAux c.val hvalid, Fin.ext rfl⟩

theorem ofChar_inj {c d : Char} (h : ofChar c = ofChar d) : c = d :=
  Char.toNat_inj.mp (Fin.mk.inj h)

end CodePoint

theorem Text.ofChars_inj {cs ds : List Char} (h : ofChars cs = ofChars ds) : cs = ds :=
  (List.map_inj_right fun _ _ => CodePoint.ofChar_inj).mp h

end RowScope
