import Mathlib.Data.List.Basic
import RowScope.Proofs.Path.Normal

/-!
# References to Files

What a database that must not be written to is opened by. The reference has the
path of the file in it, and a path may have anything in it: percent signs, the
marks that begin a query or a fragment, and bytes that are no text. None of this
gets through, because what is no letter, no digit and none of five harmless
characters is written by number. So there is a single question mark in a
reference, wherever the path leads, and what follows it is the query that asks
for reading only.

Nothing is lost either. What the numbers stand for are the bytes of the
normalised path, and these are all that two references can differ in.

`Writes` says what characters stand for which bytes without saying how to find
either. Writing the bytes and reading them again are each shown to agree with
it.

## Main definitions

* `IsUnescaped`, `hexDigits`: The characters that stand for themselves, and the
  digits.
* `Writes`: Characters that stand for bytes.
* `NamesFile`: The path of a file.
* `IsReference`: A reference to a file that asks for reading only.

## Theorems

* `writes_percentEncoded`, `Writes.decoded`: Writing bytes, and reading them
  again.
* `readOnlyTarget_isReference`, `readOnlyTarget_inj`: References are such, and
  differ.
* `target_normalised`, `target_unencodable`: What a path becomes.
* `target_eq_iff`, `target_eq_iff_of_isDecoded`: When two paths become the same.
-/

namespace RowScope

namespace Path

/-- A character that stands for itself in a reference. -/
def IsUnescaped (c : Char) : Prop :=
  'A' ≤ c ∧ c ≤ 'Z' ∨ 'a' ≤ c ∧ c ≤ 'z' ∨ '0' ≤ c ∧ c ≤ '9' ∨ c ∈ ['_', '.', '-', '~', '/']

instance (c : Char) : Decidable (IsUnescaped c) :=
  inferInstanceAs (Decidable (_ ∨ _))

/-- A text that is the path of a file, and not that of the database in
    memory. -/
structure NamesFile (path : Text) : Prop where
  file : path ≠ memoryPath
  nul : ∀ c ∈ path, c.val ≠ 0

/-- The hexadecimal digits. -/
def hexDigits : List Char :=
  ['0', '1', '2', '3', '4', '5', '6', '7', '8', '9', 'A', 'B', 'C', 'D', 'E', 'F']

/-- Characters and the bytes that they stand for. -/
inductive Writes : List Char → Bytes → Prop
  | nil : Writes [] []
  -- A byte whose character stands for itself.
  | unescaped {q : List Char} {bytes : Bytes} (c : Char) (b : UInt8) (unescaped : IsUnescaped c)
      (same : c.toNat = b.toNat) (written : Writes q bytes) : Writes (c :: q) (b :: bytes)
  -- A byte by its number.
  | number {q : List Char} {bytes : Bytes} (high low : Char) (b : UInt8)
      (first : hexDigits[b.toNat / 16]? = some high) (second : hexDigits[b.toNat % 16]? = some low)
      (written : Writes q bytes) : Writes ('%' :: high :: low :: q) (b :: bytes)

/-- A reference that asks for reading only, to the file whose path is some
    bytes. -/
structure IsReference (bytes : Bytes) (escaped : List Char) (target : Text) : Prop where
  form : target = Text.ofString "file://" ++ Text.ofChars escaped ++ Text.ofString "?mode=ro"
  written : Writes escaped bytes
  decoded : percentDecoded? escaped = some bytes
  /-- At whatever question mark a reader begins the query, it is this one. -/
  query : ∀ front back, target = front ++ CodePoint.ofChar '?' :: back →
    front = Text.ofString "file://" ++ Text.ofChars escaped ∧ back = Text.ofString "mode=ro"
  fragment : CodePoint.ofChar '#' ∉ target

/-! ### Writing bytes -/

theorem upperHexDigit_eq (n : Nat) (h : n < 16) : hexDigits[n]? = some (upperHexDigit n) := by
  have all : ∀ n < 16, hexDigits[n]? = some (upperHexDigit n) := by decide
  exact all n h

theorem eq_upperHexDigit {n : Nat} {c : Char} (h : hexDigits[n]? = some c) :
    n < 16 ∧ c = upperHexDigit n := by
  have hlt : n < 16 := (List.getElem?_eq_some_iff.mp h).1
  rw [upperHexDigit_eq n hlt, Option.some.injEq] at h
  exact ⟨hlt, h.symm⟩

/-- A harmless byte is a character that stands for itself. There are few enough
    bytes to try each of them. -/
theorem isUnescaped_of_isHarmless (b : UInt8) (h : isHarmless b = true) :
    IsUnescaped (Char.ofNat b.toNat) ∧ (Char.ofNat b.toNat).toNat = b.toNat := by
  have all : ∀ n < 256, isHarmless (UInt8.ofNat n) = true →
      IsUnescaped (Char.ofNat n) ∧ (Char.ofNat n).toNat = n := by
    decide +kernel
  have hb := all b.toNat b.toNat_lt
  rw [UInt8.ofNat_toNat] at hb
  exact hb h

/-- Writing bytes makes characters that stand for them. A harmless byte is its
    own character, and any other is written by the two digits of its number,
    which are below sixteen. -/
theorem writes_percentEncoded (bytes : Bytes) : Writes (percentEncoded bytes) bytes := by
  induction bytes with
  | nil => exact .nil
  | cons b rest ih =>
      rw [percentEncoded, List.flatMap_cons]
      split
      · rename_i harmless
        rcases isUnescaped_of_isHarmless b harmless with ⟨hunescaped, hsame⟩
        exact .unescaped _ b hunescaped hsame ih
      · have hlt := b.toNat_lt
        exact .number _ _ b (upperHexDigit_eq _ (by omega)) (upperHexDigit_eq _ (by omega)) ih

/-! ### Reading them again -/

theorem upperHexValue?_eq (n : Nat) (c : Char) (h : hexDigits[n]? = some c) :
    upperHexValue? c = some n := by
  have all : ∀ n < 16, upperHexValue? (upperHexDigit n) = some n := by decide
  rcases eq_upperHexDigit h with ⟨hlt, rfl⟩
  exact all n hlt

theorem not_isUnescaped_percent : ¬ IsUnescaped '%' := by
  decide

/-- What stands for bytes is read as these. The percent sign, which tells a
    number from a character that stands for itself, is no such character, so a
    reader always knows which of them comes next. -/
theorem Writes.decoded {q : List Char} {bytes : Bytes} (h : Writes q bytes) :
    percentDecoded? q = some bytes := by
  induction h with
  | nil => rfl
  | @unescaped q bytes c b unescaped same _ ih =>
      have hbyte : UInt8.ofNat c.toNat = b := by rw [same, UInt8.ofNat_toNat]
      rw [percentDecoded?, ih, Option.map_some, hbyte]
      rintro high low rest rfl -
      exact not_isUnescaped_percent unescaped
  | @number q bytes high low b first second _ ih =>
      have hbyte : UInt8.ofNat (b.toNat / 16 * 16 + b.toNat % 16) = b := by
        rw [Nat.div_add_mod', UInt8.ofNat_toNat]
      rw [percentDecoded?, upperHexValue?_eq _ high first, upperHexValue?_eq _ low second, ih]
      exact congrArg some (congrArg (· :: bytes) hbyte)

/-- Different bytes are written differently, because they are read again. -/
theorem percentEncoded_inj {a b : Bytes} (h : percentEncoded a = percentEncoded b) : a = b := by
  have ha := (writes_percentEncoded a).decoded
  rw [h, (writes_percentEncoded b).decoded, Option.some.injEq] at ha
  exact ha.symm

/-! ### References -/

/-- Neither mark that a reader looks for is among the characters that stand for
    bytes. Were one of them harmless, a path could end the reference and begin a
    query of its own. -/
theorem Writes.unmarked {q : List Char} {bytes : Bytes} (h : Writes q bytes) :
    ∀ c ∈ q, c ≠ '?' ∧ c ≠ '#' := by
  have unescapedUnmarked : ∀ c, IsUnescaped c → c ≠ '?' ∧ c ≠ '#' := by
    rintro c hc
    constructor
    · rintro rfl
      exact absurd hc (by decide)
    · rintro rfl
      exact absurd hc (by decide)
  have digitUnmarked : ∀ (n : Nat) (c : Char), hexDigits[n]? = some c → c ≠ '?' ∧ c ≠ '#' := by
    intro n c hc
    -- There are sixteen digits, and they can be looked at one by one.
    have all : ∀ n < 16, upperHexDigit n ≠ '?' ∧ upperHexDigit n ≠ '#' := by decide
    rcases eq_upperHexDigit hc with ⟨hlt, rfl⟩
    exact all n hlt
  induction h with
  | nil => exact fun c hc => absurd hc List.not_mem_nil
  | unescaped c b unescaped same _ ih =>
      exact List.forall_mem_cons.mpr ⟨unescapedUnmarked c unescaped, ih⟩
  | number high low b first second _ ih =>
      exact List.forall_mem_cons.mpr ⟨by decide, List.forall_mem_cons.mpr
        ⟨digitUnmarked _ high first, List.forall_mem_cons.mpr ⟨digitUnmarked _ low second, ih⟩⟩⟩

theorem Writes.ofChar_not_mem {q : List Char} {bytes : Bytes} (h : Writes q bytes) (mark : Char)
    (hmark : mark = '?' ∨ mark = '#') : CodePoint.ofChar mark ∉ Text.ofChars q := by
  intro hmem
  rcases List.mem_map.mp hmem with ⟨c, hc, heq⟩
  rw [CodePoint.ofChar_inj heq] at hc
  rcases hmark with rfl | rfl
  · exact (h.unmarked _ hc).1 rfl
  · exact (h.unmarked _ hc).2 rfl

/-- What stands for bytes makes a reference. There is one question mark in it,
    the one behind the path, so a reader that splits it at any question mark
    splits it there. -/
theorem Writes.isReference {q : List Char} {bytes : Bytes} (h : Writes q bytes) :
    IsReference bytes q
      (Text.ofString "file://" ++ Text.ofChars q ++ Text.ofString "?mode=ro") where
  form := rfl
  written := h
  decoded := h.decoded
  query := by
    intro front back heq
    have hquery : Text.ofString "?mode=ro" = CodePoint.ofChar '?' :: Text.ofString "mode=ro" := by
      decide
    have hbefore : CodePoint.ofChar '?' ∉ Text.ofString "file://" ++ Text.ofChars q := by
      rw [List.mem_append, not_or]
      exact ⟨by decide, h.ofChar_not_mem '?' (Or.inl rfl)⟩
    have hafter : CodePoint.ofChar '?' ∉ Text.ofString "mode=ro" := by decide
    rw [hquery, List.append_cons_inj_of_notMem hbefore hafter] at heq
    exact ⟨heq.1.symm, heq.2.2.symm⟩
  fragment := by
    rw [List.mem_append, List.mem_append, not_or, not_or]
    exact ⟨⟨by decide, h.ofChar_not_mem '#' (Or.inr rfl)⟩, by decide⟩

theorem readOnlyTarget_isReference (bytes : Bytes) :
    IsReference bytes (percentEncoded bytes) (readOnlyTarget bytes) :=
  (writes_percentEncoded bytes).isReference

/-- References differ in what they refer to: what is around the characters is
    the same in all of them. -/
theorem readOnlyTarget_inj {a b : Bytes} (h : readOnlyTarget a = readOnlyTarget b) : a = b := by
  rw [readOnlyTarget, readOnlyTarget, List.append_cancel_right_eq, List.append_cancel_left_eq] at h
  exact percentEncoded_inj (Text.ofChars_inj h)

/-! ### Targets -/

/-- A path that can be encoded becomes the reference to its normalised path, by
    its bytes. -/
theorem target_normalised (cwd path : Text) (hcwd : cwd.IsEncodable) (hfile : NamesFile path)
    (hpath : path.IsEncodable) : ∃ bytes, Text.encode (normalised cwd path) = some bytes ∧
      target true (parse cwd) path = .ok (readOnlyTarget bytes, true) := by
  rw [normalised_eq_placeText]
  exact target_of_encodable (parse cwd) path hfile.file hfile.nul hpath (parse_isEncodable cwd hcwd)

/-- A path that cannot be encoded becomes nothing. The first of its names that
    cannot be looked up is the reason, and as no name has a NUL the reason is
    its encoding. -/
theorem target_unencodable (here : Path) (path : Text) (hfile : NamesFile path)
    (hpath : ¬ path.IsEncodable) : target true here path = .error .pathNotEncodable := by
  rcases hfault : (parse path).names.findSome? nameFault? with _ | fault
  · exact absurd ((names_faultless_iff path).mp hfault).1 hpath
  · have hunencodable : fault = .pathNotEncodable := by
      rcases List.exists_of_findSome?_eq_some hfault with ⟨name, hname, hname'⟩
      rcases nameFault?_eq_some hname' with hfault | ⟨-, c, hc, hzero⟩
      · exact hfault
      · have hmem := mem_pieces path name (List.mem_filter.mp hname).1 c hc
        exact absurd hzero (hfile.nul c hmem)
    rw [target, bne_iff_ne.mpr hfile.file, hfault, hunencodable]
    rfl

section

variable (cwd p q : Text) (pfile : NamesFile p) (qfile : NamesFile q)

include pfile qfile

/-- Two paths become the same reference if and only if their normalised paths
    have the same bytes. Different texts may have the same bytes, where one of
    them has surrogates for bytes that make up a character. -/
theorem target_eq_iff (hcwd : cwd.IsEncodable) (hp : p.IsEncodable) (hq : q.IsEncodable) :
    target true (parse cwd) p = target true (parse cwd) q ↔
      Text.encode (normalised cwd p) = Text.encode (normalised cwd q) := by
  rcases target_normalised cwd p hcwd pfile hp with ⟨a, ha, hptarget⟩
  rcases target_normalised cwd q hcwd qfile hq with ⟨b, hb, hqtarget⟩
  rw [ha, hb, hptarget, hqtarget]
  constructor
  · intro h
    rw [Except.ok.injEq, Prod.mk.injEq] at h
    rw [readOnlyTarget_inj h.1]
  · intro h
    rw [Option.some.inj h]

/-- Where everything is decoded bytes, the normalised paths themselves are the
    same, as no two decoded texts have the same bytes. This is so for the words
    of a command line and for the names that a file system gives. -/
theorem target_eq_iff_of_isDecoded (hcwd : cwd.IsDecoded) (hp : p.IsDecoded) (hq : q.IsDecoded) :
    target true (parse cwd) p = target true (parse cwd) q ↔
      normalised cwd p = normalised cwd q := by
  rw [target_eq_iff cwd p q pfile qfile hcwd.isEncodable hp.isEncodable hq.isEncodable]
  exact ⟨Text.encode_injective_of_isDecoded _ _ (normalised_isDecoded cwd p hcwd hp)
    (normalised_isDecoded cwd q hcwd hq), fun h => congrArg Text.encode h⟩

end

end Path

end RowScope
