import Mathlib.Data.List.TakeWhile
import RowScope.Proofs.Text.WellFormed

/-!
# Boundaries

Where bytes can be cut without a change of what they are decoded to. Behind a
cut there must be no continuation byte, since that could belong to a character
that started before. Then it does not matter whether a sequence breaks off at
the end or at the next lead byte: all of its bytes go astray either way. No
weaker condition will do, because in front of any continuation byte there may be
a lead byte that wants just one. The encoder needs no condition at all.

A byte of ASCII is such a place, and is part of no other character. So splitting
a text at an ASCII character and splitting its bytes there come to the same. In
particular, a reader who stops at the first NUL may do so before or after
decoding.

Not every text that can be encoded is what some bytes are decoded to. Two strays
may be the bytes of one character, and then the text of the strays and that of
the character are encoded alike. Among the texts that bytes are decoded to, no
two are.

## Main definitions

* `Text.IsDecoded`: A text that some bytes are decoded to.

## Theorems

* `decode_append`: Cut bytes are decoded one part after the other.
* `decode_append_iff`: In front of continuation bytes alone a cut can change the
  text.
* `decode_intercalate`, `splitOn_decode`: Joining and splitting at a byte of
  ASCII.
* `beforeNul_decode`: Cutting at the first NUL commutes with decoding.
* `encode_injective_of_isDecoded`: Decoded texts differ in their bytes.
* `codec_local`: The codec in both directions, one part after the other.
-/

namespace RowScope

/-- No piece of a split has the separator in it. -/
theorem not_mem_of_mem_splitOn {α : Type} [BEq α] [LawfulBEq α] (a : α) (xs piece : List α)
    (h : piece ∈ xs.splitOn a) : a ∉ piece := by
  induction xs generalizing piece with
  | nil =>
      rw [List.splitOn_nil, List.mem_singleton] at h
      rw [h]
      exact List.not_mem_nil
  | cons x rest ih =>
      rw [List.splitOn_cons_eq_if_modifyHead] at h
      rcases List.exists_cons_of_ne_nil (List.splitOn_ne_nil a rest) with ⟨first, others, hsplit⟩
      rw [hsplit] at h ih
      split at h
      · rcases List.mem_cons.mp h with rfl | hrest
        · exact List.not_mem_nil
        · exact ih piece hrest
      · rename_i hne
        rw [beq_iff_eq] at hne
        -- Only the first piece has grown, and by something that is no
        -- separator.
        rcases List.mem_cons.mp h with rfl | hothers
        · rw [List.mem_cons, not_or]
          exact ⟨fun heq => hne heq.symm, ih first List.mem_cons_self⟩
        · exact ih piece (List.mem_cons_of_mem first hothers)

namespace Text

theorem isContinuation_eq_false_iff (b : UInt8) :
    isContinuation b = false ↔ b.toNat < 0x80 ∨ 0xBF < b.toNat := by
  rw [← Bool.not_eq_true, isContinuation_iff]
  omega

/-- The bytes behind a lead byte are continuation bytes. -/
theorem Spells.continued {c : CodePoint} {a : UInt8} {follow : Bytes} (h : Spells c a follow) :
    ∀ b ∈ follow, isContinuation b = true := by
  cases (isSequence_iff a follow).mpr ⟨c, h⟩ with
  | one lead => exact fun b hb => absurd hb List.not_mem_nil
  | two lead second => exact List.forall_mem_singleton.mpr second
  | three lead second third =>
      exact List.forall_mem_cons.mpr ⟨second, List.forall_mem_singleton.mpr third⟩
  | four lead second third fourth =>
      exact List.forall_mem_cons.mpr ⟨second, List.forall_mem_cons.mpr
        ⟨third, List.forall_mem_singleton.mpr fourth⟩⟩

/-- A byte that goes astray before a cut does so as well with what is behind the
    cut. If bytes behind the cut were part of a spelling, the first of them
    would be a continuation byte. -/
theorem unspelled_append (a : UInt8) (follow next : Bytes)
    (boundary : ∀ b ∈ next.head?, isContinuation b = false) (h : sequence? a follow = none) :
    sequence? a (follow ++ next) = none := by
  rw [sequence?_eq_none_iff] at h ⊢
  intro c bytes rest hbytes hspells
  -- What is spelled either ends before the cut, or has the first byte behind
  -- it.
  rcases List.append_eq_append_iff.mp hbytes with ⟨behind, hbehind, hnext⟩ | ⟨before, hbefore, -⟩
  · rcases behind with _ | ⟨b, behind⟩
    · exact h c bytes [] (by rw [hbehind, List.append_nil, List.append_nil]) hspells
    · have hcontinues := hspells.continued b (by
        rw [hbehind]
        exact List.mem_append_right follow List.mem_cons_self)
      have hcut := boundary b (by rw [hnext]; rfl)
      rw [hcontinues] at hcut
      cases hcut
  · exact h c bytes before hbefore hspells

/-- Bytes that are cut before a byte that is no continuation byte are decoded
    one part after the other. Nothing is asked of the part before the cut, which
    may break off in the middle of a character: its bytes go astray then, with
    or without the rest. -/
theorem decode_append (bytes next : Bytes)
    (boundary : ∀ b ∈ next.head?, isContinuation b = false) :
    decode (bytes ++ next) = decode bytes ++ decode next := by
  induction bytes using pieces_induction with
  | nil => rfl
  | spelled c a follow rest hspells ih =>
      rw [List.cons_append, List.append_assoc, decode_spelled hspells, decode_spelled hspells, ih]
      rfl
  | unspelled a rest hnone ih =>
      rw [List.cons_append, decode_unspelled (unspelled_append a rest next boundary hnone),
        decode_unspelled hnone, ih]
      rfl

/-- A continuation byte completes the character of a lead byte in front of it,
    which a cut between the two would make go astray. -/
theorem decode_lead_append (b : UInt8) (rest : Bytes) (hb : isContinuation b = true) :
    decode ([0xC3] ++ b :: rest) ≠ decode [0xC3] ++ decode (b :: rest) := by
  intro h
  have hsequence : IsSequence [0xC3, b] := .two (by decide) hb
  rcases (isSequence_iff 0xC3 [b]).mp hsequence with ⟨c, hspells⟩
  have hwhole : decode ([0xC3] ++ b :: rest) = c :: decode rest := decode_spelled hspells rest
  have hlead : decode [0xC3] = [CodePoint.stray 0xC3] := rfl
  rw [hwhole, hlead, List.singleton_append, List.cons.injEq] at h
  -- A stray is a surrogate, and what is spelled is none.
  have hscalar := hspells.scalar
  rw [h.1] at hscalar
  exact absurd hscalar (by decide)

/-- Whatever comes before a cut is decoded on its own if and only if no
    continuation byte stands behind the cut. In front of a continuation byte
    there can always be a lead byte that wants one. -/
theorem decode_append_iff (next : Bytes) :
    (∀ bytes, decode (bytes ++ next) = decode bytes ++ decode next) ↔
      ∀ b ∈ next.head?, isContinuation b = false := by
  refine ⟨fun h b hb => ?_, fun boundary bytes => decode_append bytes next boundary⟩
  rcases List.head?_eq_some_iff.mp hb with ⟨rest, rfl⟩
  rcases hcontinues : isContinuation b with _ | _
  · rfl
  · exact absurd (h [0xC3]) (decode_lead_append b rest hcontinues)

/-! ### Bytes of ASCII -/

section

variable (a : UInt8) (ascii : a.toNat < 0x80)

include ascii

theorem decode_ascii_cons (rest : Bytes) :
    decode (a :: rest) = CodePoint.ofNat a.toNat :: decode rest := by
  have hval := (ofNat_eq_iff a.toNat (by omega) _).mp rfl
  have hspells : Spells (CodePoint.ofNat a.toNat) a [] := .one hval.symm (by omega)
  rw [← decode_spelled hspells rest, List.nil_append]

/-- A character of ASCII comes from its byte alone. Characters of several bytes
    and strays are above ASCII, so no other piece of the bytes is decoded to
    it. -/
theorem mem_of_mem_decode (bytes : Bytes) (h : CodePoint.ofNat a.toNat ∈ decode bytes) :
    a ∈ bytes := by
  have hval : (CodePoint.ofNat a.toNat).val = a.toNat := (ofNat_eq_iff a.toNat (by omega) _).mp rfl
  induction bytes using pieces_induction with
  | nil => exact absurd h List.not_mem_nil
  | spelled c lead follow rest hspells ih =>
      rw [decode_spelled hspells] at h
      rcases List.mem_cons.mp h with rfl | hrest
      · -- A character that is spelled with more than one byte lies above ASCII.
        cases hspells with
        | one hlead below =>
            rw [UInt8.toNat_inj.mp (hlead.trans hval)]
            exact List.mem_cons_self
        | two hlead second above below => omega
        | three hlead second third above below scalar => omega
        | four hlead second third fourth above => omega
      · exact List.mem_cons_of_mem lead (List.mem_append_right follow (ih hrest))
  | unspelled lead rest hnone ih =>
      rw [decode_unspelled hnone] at h
      rcases List.mem_cons.mp h with hstray | hrest
      · have hstrayVal : (CodePoint.stray lead).val = 0xDC00 + lead.toNat := rfl
        rw [← hstray] at hstrayVal
        omega
      · exact List.mem_cons_of_mem lead (ih hrest)

/-- Bytes can be cut before a byte of ASCII. -/
theorem boundary_ascii (rest : Bytes) : ∀ b ∈ (a :: rest).head?, isContinuation b = false := by
  intro b hb
  rw [← Option.some.inj hb, isContinuation_eq_false_iff]
  exact Or.inl ascii

/-- Parts that are joined by a byte of ASCII are decoded one by one, since the
    byte is a boundary. -/
theorem decode_intercalate (parts : List Bytes) :
    decode ([a].intercalate parts) = [CodePoint.ofNat a.toNat].intercalate (parts.map decode) := by
  induction parts with
  | nil => rfl
  | cons first others ih =>
      rcases others with _ | ⟨second, others⟩
      · rw [List.map_cons, List.map_nil, List.intercalate_singleton, List.intercalate_singleton]
      · rw [List.intercalate_cons_cons, List.append_assoc, List.singleton_append,
          decode_append first _ (boundary_ascii a ascii _), decode_ascii_cons a ascii, ih,
          List.map_cons, List.map_cons, List.map_cons, List.intercalate_cons_cons,
          List.append_assoc, List.singleton_append]

/-- Splitting a text at a character of ASCII and splitting its bytes there come
    to the same. This is how names are found in a path, whether it is looked at
    as text or as bytes. -/
theorem splitOn_decode (bytes : Bytes) :
    (decode bytes).splitOn (CodePoint.ofNat a.toNat) = (bytes.splitOn a).map decode := by
  have absent : ∀ t ∈ (bytes.splitOn a).map decode, CodePoint.ofNat a.toNat ∉ t := by
    intro t ht hmem
    rcases List.mem_map.mp ht with ⟨part, hpart, rfl⟩
    exact not_mem_of_mem_splitOn a bytes part hpart (mem_of_mem_decode a ascii part hmem)
  have some : (bytes.splitOn a).map decode ≠ [] := by
    rw [Ne, List.map_eq_nil_iff]
    exact List.splitOn_ne_nil a bytes
  calc (decode bytes).splitOn (CodePoint.ofNat a.toNat)
      = (decode ([a].intercalate (bytes.splitOn a))).splitOn (CodePoint.ofNat a.toNat) := by
        rw [List.intercalate_splitOn]
    _ = ([CodePoint.ofNat a.toNat].intercalate ((bytes.splitOn a).map decode)).splitOn
          (CodePoint.ofNat a.toNat) := by
        rw [decode_intercalate a ascii]
    _ = (bytes.splitOn a).map decode := List.splitOn_intercalate _ absent some

end

/-- What is decoded before the first NUL are the bytes before the first NUL. The
    bytes are cut in front of their first NUL, which is a boundary, and the text
    before it has no NUL. -/
theorem beforeNul_decode (bytes : Bytes) :
    (decode bytes).beforeNul = decode (bytes.takeWhile fun b => b.toNat != 0) := by
  have before : ∀ c ∈ decode (bytes.takeWhile fun b => b.toNat != 0), (c.val != 0) = true := by
    intro c hc
    rw [bne_iff_ne]
    intro hzero
    -- A NUL in the text would be one in the bytes.
    rw [show c = CodePoint.ofNat (0 : UInt8).toNat from Fin.ext hzero] at hc
    have hnul := List.mem_takeWhile_imp (mem_of_mem_decode 0 (by decide) _ hc)
    exact absurd hnul (by decide)
  have behind : (∀ b ∈ (bytes.dropWhile fun b => b.toNat != 0).head?, isContinuation b = false) ∧
      (decode (bytes.dropWhile fun b => b.toNat != 0)).beforeNul = [] := by
    have hstop := List.head?_dropWhile_not (fun b : UInt8 => b.toNat != 0) bytes
    rcases hrest : bytes.dropWhile (fun b => b.toNat != 0) with _ | ⟨b, rest⟩
    · rw [hrest]
      exact ⟨fun b hb => absurd hb (Option.not_mem_none b), rfl⟩
    · rw [hrest] at hstop ⊢
      obtain rfl : b = 0 := UInt8.toNat_inj.mp (bne_eq_false_iff_eq.mp hstop)
      refine ⟨boundary_ascii 0 (by decide) rest, ?_⟩
      rw [decode_ascii_cons 0 (by decide)]
      rfl
  calc (decode bytes).beforeNul
      = (decode (bytes.takeWhile fun b => b.toNat != 0) ++
          decode (bytes.dropWhile fun b => b.toNat != 0)).beforeNul := by
        rw [← decode_append _ _ behind.1, List.takeWhile_append_dropWhile]
    _ = decode (bytes.takeWhile fun b => b.toNat != 0) ++
          (decode (bytes.dropWhile fun b => b.toNat != 0)).beforeNul :=
        List.takeWhile_append_of_pos before
    _ = decode (bytes.takeWhile fun b => b.toNat != 0) := by
        rw [behind.2, List.append_nil]

/-! ### Decoded texts -/

/-- A text that some bytes are decoded to. -/
def IsDecoded (t : Text) : Prop :=
  ∃ bytes, decode bytes = t

theorem IsDecoded.isEncodable {t : Text} (h : t.IsDecoded) : t.IsEncodable := by
  rcases h with ⟨bytes, rfl⟩
  exact decode_isEncodable bytes

/-- A text of characters is what their bytes are decoded to. -/
theorem ofChars_isDecoded (cs : List Char) : (ofChars cs).IsDecoded :=
  ⟨_, decode_chars cs⟩

/-- Decoded texts differ in their bytes, since each of them is what its own
    bytes are decoded to. Other texts need not: two strays may be encoded like
    one character. -/
theorem encode_injective_of_isDecoded (s t : Text) (hs : s.IsDecoded) (ht : t.IsDecoded)
    (h : encode s = encode t) : s = t := by
  rcases hs with ⟨a, rfl⟩
  rcases ht with ⟨b, rfl⟩
  rw [encode_decode, encode_decode, Option.some.injEq] at h
  rw [h]

/-! ### Both directions -/

/-- The codec works one part after the other. Bytes are decoded so, whatever
    comes first and however it breaks off, if and only if what comes next does
    not start with a continuation byte. Texts are encoded so if each of them can
    be encoded.

    So only decoding can go wrong where a stream is cut, and one byte of the
    next part is enough to know whether it does. -/
theorem codec_local :
    (∀ next : Bytes, (∀ b ∈ next.head?, b.toNat < 0x80 ∨ 0xBF < b.toNat) ↔
        ∀ bytes, decode (bytes ++ next) = decode bytes ++ decode next) ∧
      ∀ s t : Text, s.IsEncodable → t.IsEncodable →
        ∃ first second, encode s = some first ∧ encode t = some second ∧
          encode (s ++ t) = some (first ++ second) := by
  refine ⟨fun next => ?_, fun s t hs ht => ?_⟩
  · simp only [decode_append_iff, isContinuation_eq_false_iff]
  · rcases Option.isSome_iff_exists.mp ((encode_isSome_iff s).mpr hs) with ⟨first, hfirst⟩
    rcases Option.isSome_iff_exists.mp ((encode_isSome_iff t).mpr ht) with ⟨second, hsecond⟩
    exact ⟨first, second, hfirst, hsecond, encode_append hfirst hsecond⟩

/-- A character of four bytes that breaks off before one of three, and two
    strays that are the bytes of a character. -/
theorem codec_local_truncated :
    decode ([0xF0, 0x9F, 0x98] ++ [0xE2, 0x82, 0xAC]) = [0xDCF0, 0xDC9F, 0xDC98] ++ [0x20AC] ∧
      encode ([0xDCC3] ++ [0xDCA9]) = some ([0xC3] ++ [0xA9]) := by
  rcases codec_local with ⟨hdecode, hencode⟩
  refine ⟨(hdecode [0xE2, 0x82, 0xAC]).mp ?_ [0xF0, 0x9F, 0x98], ?_⟩
  · intro b hb
    rw [← Option.some.inj hb]
    decide
  · rcases hencode [0xDCC3] [0xDCA9] (List.forall_mem_singleton.mpr fun _ => rfl)
      (List.forall_mem_singleton.mpr fun _ => rfl) with ⟨first, second, hfirst, hsecond, hboth⟩
    rw [hboth, ← Option.some.inj hfirst, ← Option.some.inj hsecond]
    rfl

end Text

end RowScope
