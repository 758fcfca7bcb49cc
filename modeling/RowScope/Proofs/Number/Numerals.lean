import RowScope.Cell.Projection
import RowScope.Proofs.Text.RoundTrip

/-!
# Numbers in ASCII

However a number is laid out, it is written in digits, signs, points and a few
letters, all of which are ASCII. An ASCII text is encoded one byte for each code
point, whichever of its codecs is used: the numbers are written by the strict
one, and texts by the one that knows strays, but a text of ASCII gives neither
any trouble.

## Main definitions

* `AsciiOnly`, `Text.IsAscii`: Characters and code points of ASCII alone.

## Theorems

* `encode_ascii`: An ASCII text is encoded code point by code point.
* `decode_encode_ascii`: And decoded again.
* `render_ascii`: Whatever the layout, digits are laid out in ASCII.
* `ofInt_isAscii`, `text_isAscii`: Integers and reals are written in ASCII.
-/

namespace RowScope

/-- Characters of ASCII alone. -/
def AsciiOnly (cs : List Char) : Prop :=
  ∀ c ∈ cs, c.toNat < 0x80

instance (cs : List Char) : Decidable (AsciiOnly cs) :=
  List.decidableBAll (fun c : Char => c.toNat < 0x80) cs

namespace Text

/-- Code points of ASCII alone. -/
def IsAscii (t : Text) : Prop :=
  ∀ c ∈ t, c.val < 0x80

theorem ofChars_isAscii (cs : List Char) (h : AsciiOnly cs) : (ofChars cs).IsAscii := by
  intro point hmem
  rcases List.mem_map.mp hmem with ⟨c, hc, rfl⟩
  exact h c hc

/-- ASCII text is encoded one byte for each code point, so that both can be
    compared by their values. -/
theorem encode_ascii (t : Text) (ht : t.IsAscii) :
    encode t = some (t.map fun c => UInt8.ofNat c.val) := by
  induction t with
  | nil => rfl
  | cons c rest ih =>
      rcases List.forall_mem_cons.mp ht with ⟨hc, hrest⟩
      exact encode_cons (encodePoint_ascii c hc) (ih hrest)

theorem ascii_not_surrogate (t : Text) (ht : t.IsAscii) : ∀ c ∈ t, c.isSurrogate = false := by
  intro c hc
  have hlt := ht c hc
  rw [isSurrogate_eq_false_iff]
  omega

/-- The bytes of an ASCII text are ASCII, and are decoded as it was. A number
    that is written as text and stored as bytes is therefore read like the text
    itself. -/
theorem decode_encode_ascii (t : Text) (ht : t.IsAscii) :
    ∃ bytes, encode t = some bytes ∧ decode bytes = t ∧
      bytes.map UInt8.toNat = t.map Fin.val := by
  rcases decode_encode t (ascii_not_surrogate t ht) with ⟨bytes, hencode, hdecode⟩
  refine ⟨bytes, hencode, hdecode, ?_⟩
  have hbytes := encode_ascii t ht
  rw [hencode, Option.some.injEq] at hbytes
  rw [hbytes, List.map_map]
  refine List.map_congr_left fun c hc => ?_
  have hlt := ht c hc
  rw [Function.comp_apply, UInt8.toNat_ofNat', Nat.mod_eq_of_lt (by omega)]

end Text

/-! ### Digits and layouts -/

namespace AsciiOnly

theorem cons {c : Char} {cs : List Char} (hc : c.toNat < 0x80) (hcs : AsciiOnly cs) :
    AsciiOnly (c :: cs) :=
  List.forall_mem_cons.mpr ⟨hc, hcs⟩

theorem append {cs ds : List Char} (hcs : AsciiOnly cs) (hds : AsciiOnly ds) :
    AsciiOnly (cs ++ ds) :=
  List.forall_mem_append.mpr ⟨hcs, hds⟩

theorem zeros (n : Nat) : AsciiOnly (List.replicate n '0') := by
  intro c hc
  rw [List.eq_of_mem_replicate hc]
  decide

theorem digits (n : Nat) : AsciiOnly (Nat.toDigits 10 n) := by
  intro c hc
  have hdigit := Nat.isDigit_of_mem_toDigits (by decide) (by decide) hc
  simp only [Char.isDigit, Bool.and_eq_true, decide_eq_true_eq, UInt32.le_iff_toNat_le] at hdigit
  have hupper : c.toNat ≤ 57 := hdigit.2
  omega

end AsciiOnly

theorem Scientific.trimmed_ascii (s : Scientific) : AsciiOnly s.trimmed := by
  have hkept : AsciiOnly
      ((Nat.toDigits 10 s.coefficient).reverse.dropWhile (· == '0')).reverse := by
    intro c hc
    have hdigits := List.mem_reverse.mp ((List.dropWhile_sublist _).mem (List.mem_reverse.mp hc))
    exact AsciiOnly.digits s.coefficient c hdigits
  unfold Scientific.trimmed
  simp only []
  split
  · exact AsciiOnly.zeros 1
  · exact hkept

namespace Layout

theorem exponentMark_ascii (e : Int) : AsciiOnly (exponentMark e) := by
  have hdigits := AsciiOnly.digits e.natAbs
  unfold exponentMark
  refine AsciiOnly.cons (by decide) (AsciiOnly.cons ?_ ?_)
  · split
    · decide
    · decide
  · split
    · exact AsciiOnly.cons (by decide) hdigits
    · exact hdigits

theorem fraction_ascii (ds : List Char) (h : AsciiOnly ds) : AsciiOnly (fraction ds) := by
  cases ds with
  | nil => exact AsciiOnly.zeros 1
  | cons d rest => exact h

theorem plain_ascii (ds : List Char) (h : AsciiOnly ds) (e : Int) : AsciiOnly (plain ds e) := by
  unfold plain
  split
  · exact AsciiOnly.cons (by decide) (AsciiOnly.cons (by decide) ((AsciiOnly.zeros _).append h))
  · have hwhole : AsciiOnly (ds.take (e.toNat + 1)) := fun c hc => h c (List.mem_of_mem_take hc)
    have hrest : AsciiOnly (ds.drop (e.toNat + 1)) := fun c hc => h c (List.mem_of_mem_drop hc)
    exact (hwhole.append (AsciiOnly.zeros _)).append
      (AsciiOnly.cons (by decide) (fraction_ascii _ hrest))

theorem withExponent_ascii (layout : Layout) (ds : List Char) (h : AsciiOnly ds) (e : Int) :
    AsciiOnly (layout.withExponent ds e) := by
  have hmark := exponentMark_ascii e
  unfold withExponent
  split
  · exact AsciiOnly.cons (by decide) hmark
  · rename_i d
    refine AsciiOnly.cons (h d List.mem_cons_self) (AsciiOnly.append ?_ hmark)
    split
    · exact AsciiOnly.cons (by decide) (AsciiOnly.zeros 1)
    · exact AsciiOnly.zeros 0
  · rename_i d rest hne
    rcases List.forall_mem_cons.mp h with ⟨hd, hrest⟩
    exact AsciiOnly.cons hd (AsciiOnly.cons (by decide) (AsciiOnly.append hrest hmark))

/-- Whatever the layout, digits are laid out in ASCII: a layout puts in zeros,
    points, signs and a letter, and nothing else. -/
theorem render_ascii (layout : Layout) (ds : List Char) (h : AsciiOnly ds) (e : Int) :
    AsciiOnly (layout.render ds e) := by
  unfold render
  split
  · exact plain_ascii ds h e
  · exact layout.withExponent_ascii ds h e

end Layout

/-- Integers are written in ASCII. -/
theorem Text.ofInt_isAscii (n : Int) : (Text.ofInt n).IsAscii := by
  cases n with
  | ofNat n => exact ofChars_isAscii _ (AsciiOnly.digits n)
  | negSucc n =>
      exact ofChars_isAscii ('-' :: _) (AsciiOnly.cons (by decide) (AsciiOnly.digits (n + 1)))

namespace Binary64

theorem magnitudeText_ascii (x : Binary64) : AsciiOnly x.magnitudeText := by
  unfold magnitudeText
  split
  · exact realLayout.render_ascii _ (AsciiOnly.zeros 1) 0
  · exact realLayout.render_ascii _ (Scientific.trimmed_ascii _) _

/-- Reals are written in ASCII. -/
theorem text_isAscii (x : Binary64) : x.text.IsAscii := by
  unfold text
  split
  · exact Text.ofChars_isAscii "nan".toList (by decide +kernel)
  · split
    · split
      · exact Text.ofChars_isAscii "-Inf".toList (by decide +kernel)
      · exact Text.ofChars_isAscii "Inf".toList (by decide +kernel)
    · refine Text.ofChars_isAscii _ ?_
      split
      · exact AsciiOnly.cons (by decide) x.magnitudeText_ascii
      · exact x.magnitudeText_ascii

end Binary64

end RowScope
