import Mathlib.Algebra.Field.Rat
import Mathlib.Data.Nat.Digits.Defs
import RowScope.Text.Basic

/-!
# The Forms of Numbers

What a number looks like that a text or a blob may start with, and which number
it is. This is said of codes, which are code points of a text or bytes of a
blob, and without any scanner: a number is a list of codes that is put together
in one of certain ways, and what counts is the longest number among the prefixes
of a list.

All codes of a number are ASCII, and so are the blanks in front of it. So it
makes no difference whether numbers are looked for in a text or in its bytes,
and what stands behind the first code that is not ASCII does not count.

## Main definitions

* `WholeNumber`: A whole number, with its sign and its digits.
* `Mantissa`, `Exponent`: The two parts of a decimal number.
* `DecimalNumber`: A decimal number, with its sign and its magnitude.
* `Longest`: The longest prefix of a form.
* `Unfinished`, `Ends`: The beginning of another part, and that it does not go
  on.
* `SameAscii`: Two lists have the same prefixes that are ASCII.
* `Stops`: The first code of a rest, if there is one, is not of a kind.
* `Text.codes`, `Bytes.codes`: The codes of a text and of bytes.

## Theorems

* `exists_longest`: Where there is a prefix of a form there is a longest one.
* `Longest.stops`: What is behind it does not continue it.
* `WholeNumber.ascii`, `DecimalNumber.ascii`: Numbers are ASCII.
* `Longest.congr`, `sameAscii_cut`: What stands behind the first code that is
  not ASCII does not count.
-/

namespace RowScope

/-- The code points of a text, as numbers. -/
def Text.codes (t : Text) : List Nat := t.map Fin.val

/-- The values of bytes. -/
def Bytes.codes (bytes : Bytes) : List Nat := bytes.map UInt8.toNat

namespace Grammar

/-- Space, tab, line feed, vertical tab, form feed and carriage return. -/
def IsBlank (n : Nat) : Prop := n ∈ [32, 9, 10, 11, 12, 13]

/-- One of the digits from `0` to `9`. -/
def IsDigit (n : Nat) : Prop := 48 ≤ n ∧ n ≤ 57

instance (n : Nat) : Decidable (IsBlank n) :=
  inferInstanceAs (Decidable (n ∈ [32, 9, 10, 11, 12, 13]))

instance (n : Nat) : Decidable (IsDigit n) :=
  inferInstanceAs (Decidable (48 ≤ n ∧ n ≤ 57))

/-- At least one digit, and nothing else. -/
def IsDigits (ds : List Nat) : Prop := ds ≠ [] ∧ ∀ d ∈ ds, IsDigit d

/-- The number that digits write, the last of them counting ones. -/
def number (ds : List Nat) : Nat := Nat.ofDigits 10 (ds.reverse.map (· - 48))

/-- Digits that follow others shift them. -/
theorem number_append (a b : List Nat) :
    number (a ++ b) = number a * 10 ^ b.length + number b := by
  rw [number, List.reverse_append, List.map_append, Nat.ofDigits_append, List.length_map,
    List.length_reverse, Nat.add_comm, Nat.mul_comm, number, number]

/-- An optional sign; `true` is a minus. -/
inductive Sign : List Nat → Bool → Prop
  | none : Sign [] false
  | plus : Sign [43] false
  | minus : Sign [45] true

/-- A whole number behind blanks, with its sign and its digits. -/
inductive WholeNumber : List Nat → Bool → List Nat → Prop
  | mk {blanks sgn ds : List Nat} {negative : Bool} (blank : ∀ b ∈ blanks, IsBlank b)
      (sign : Sign sgn negative) (digits : IsDigits ds) :
      WholeNumber (blanks ++ (sgn ++ ds)) negative ds

/-- Digits with a point among them, or without one, with those before and those
    behind it. There are digits on one side of the point at least. -/
inductive Mantissa : List Nat → List Nat → List Nat → Prop
  | whole {before : List Nat} (digits : IsDigits before) : Mantissa before before []
  | pointed {before after : List Nat} (digits : IsDigits before) (others : ∀ d ∈ after, IsDigit d) :
      Mantissa (before ++ 46 :: after) before after
  | fraction {after : List Nat} (digits : IsDigits after) : Mantissa (46 :: after) [] after

/-- An optional exponent: `e` or `E`, a sign and digits. -/
inductive Exponent : List Nat → Int → Prop
  | none : Exponent [] 0
  | marked {mark : Nat} {sgn ds : List Nat} {negative : Bool} (letter : mark = 101 ∨ mark = 69)
      (sign : Sign sgn negative) (digits : IsDigits ds) :
      Exponent (mark :: (sgn ++ ds)) (if negative then -(number ds : Int) else number ds)

/-- A decimal number behind blanks, with its sign and its magnitude. -/
inductive DecimalNumber : List Nat → Bool → ℚ → Prop
  | mk {blanks sgn m x before after : List Nat} {negative : Bool} {e : Int}
      (blank : ∀ b ∈ blanks, IsBlank b) (sign : Sign sgn negative)
      (mantissa : Mantissa m before after) (exponent : Exponent x e) :
      DecimalNumber (blanks ++ (sgn ++ (m ++ x))) negative
        ((number before + number after / 10 ^ after.length) * 10 ^ e)

/-- The beginning of a part of a number that has to go on: a point, or the mark
    of an exponent and a sign. -/
inductive Unfinished : List Nat → Prop
  | point : Unfinished [46]
  | mark {mark : Nat} {sgn : List Nat} {negative : Bool} (letter : mark = 101 ∨ mark = 69)
      (sign : Sign sgn negative) : Unfinished (mark :: sgn)

/-- The codes that occur in numbers: digits, `+`, `-`, `.`, `E` and `e`. -/
def IsNumeral (n : Nat) : Prop := IsDigit n ∨ n ∈ [43, 45, 46, 69, 101]

/-- Some codes are a whole number. -/
def IsWhole (p : List Nat) : Prop := ∃ negative ds, WholeNumber p negative ds

/-- Some codes are a decimal number. -/
def IsDecimal (p : List Nat) : Prop := ∃ negative q, DecimalNumber p negative q

/-- Some codes are a mantissa and an exponent. -/
def IsUnsigned (p : List Nat) : Prop :=
  ∃ m x before after e, p = m ++ x ∧ Mantissa m before after ∧ Exponent x e

/-- The longest prefix of a form. -/
structure Longest (form : List Nat → Prop) (codes p : List Nat) : Prop where
  within : p <+: codes
  formed : form p
  longest : ∀ q, q <+: codes → form q → q.length ≤ p.length

/-- A list starts with some codes, and none of a kind continues them. -/
structure Ends (kind : Nat → Prop) (codes p : List Nat) : Prop where
  within : p <+: codes
  final : ∀ c, kind c → ¬ p ++ [c] <+: codes

/-- Codes of a form are the longest prefix of themselves. -/
theorem Longest.self {form : List Nat → Prop} {p : List Nat} (formed : form p) :
    Longest form p p :=
  ⟨List.prefix_refl p, formed, fun _ hq _ => hq.length_le⟩

/-- Where there is a prefix of a form there is a longest one, since no prefix is
    longer than the list. So to say what the longest prefix is read as, and what
    happens if there is none, covers every list. -/
theorem exists_longest (form : List Nat → Prop) (codes p : List Nat) (within : p <+: codes)
    (formed : form p) : ∃ q, Longest form codes q := by
  -- The induction is on how much of the list is left behind the prefix.
  obtain ⟨left, hleft⟩ : ∃ left, codes.length - p.length = left := ⟨_, rfl⟩
  induction left using Nat.strongRecOn generalizing p with
  | ind left ih =>
      by_cases hlongest : ∀ q, q <+: codes → form q → q.length ≤ p.length
      · exact ⟨p, within, formed, hlongest⟩
      · push Not at hlongest
        rcases hlongest with ⟨q, hq, hform, hlonger⟩
        have hle := hq.length_le
        exact ih (codes.length - q.length) (by omega) q hq hform rfl

/-! ### Parts and rests -/

/-- The first code of a rest, if there is one, is not of a kind. -/
def Stops (kind : Nat → Prop) (rest : List Nat) : Prop := ∀ c ∈ rest.head?, ¬ kind c

theorem Stops.cons {kind : Nat → Prop} {c : Nat} {rest : List Nat} (h : ¬ kind c) :
    Stops kind (c :: rest) := by
  intro d hd
  rw [List.head?_cons, Option.mem_some_iff] at hd
  rw [← hd]
  exact h

theorem IsDigit.not_blank {n : Nat} (h : IsDigit n) : ¬ IsBlank n := by
  unfold IsDigit at h
  simp only [IsBlank, List.mem_cons, List.not_mem_nil, or_false]
  omega

/-- If a prefix is the longest one of a form, then the form has no longer one
    that continues it. -/
theorem Longest.not_longer {form : List Nat → Prop} {p rest : List Nat} (x : List Nat)
    (h : Longest form (p ++ rest) p) (hx : x <+: rest) (hne : x ≠ []) : ¬ form (p ++ x) := by
  intro hform
  have hle := h.longest (p ++ x) ((List.prefix_append_right_inj p).mpr hx) hform
  rw [List.length_append] at hle
  have hpos := List.length_pos_iff.mpr hne
  omega

/-- What is left of the longest prefix of a form, if something is put in front
    of all lists. Blanks and signs are taken away like this, so that only the
    rest of the form has to be looked at. -/
theorem Longest.of_append {form form' : List Nat → Prop} (front : List Nat) {codes p : List Nat}
    (h : Longest form (front ++ codes) (front ++ p)) (hp : form' p)
    (hform : ∀ q, form' q → form (front ++ q)) : Longest form' codes p := by
  refine ⟨(List.prefix_append_right_inj front).mp h.within, hp, ?_⟩
  intro q hq hq'
  have hle := h.longest (front ++ q) ((List.prefix_append_right_inj front).mpr hq) (hform q hq')
  rw [List.length_append, List.length_append] at hle
  omega

/-- The first code of what is left behind the longest prefix does not continue
    it. This is how the longest prefix is used: of all that could follow it, a
    scanner sees only one code. -/
theorem Longest.stops {form : List Nat → Prop} {p rest : List Nat} (kind : Nat → Prop)
    (h : Longest form (p ++ rest) p) (continues : ∀ c, kind c → form (p ++ [c])) :
    Stops kind rest := by
  intro c hc hkind
  rcases rest with _ | ⟨d, rest⟩
  · exact nomatch hc
  · rw [List.head?_cons, Option.mem_some_iff] at hc
    subst hc
    exact h.not_longer [d] ⟨rest, rfl⟩ (List.cons_ne_nil d []) (continues d hkind)

theorem IsDigits.concat {ds : List Nat} {c : Nat} (h : IsDigits ds) (hc : IsDigit c) :
    IsDigits (ds ++ [c]) := by
  refine ⟨by simp, ?_⟩
  intro d hd
  rcases List.mem_append.mp hd with hd | hd
  · exact h.2 d hd
  · rw [List.mem_singleton.mp hd]
    exact hc

/-- The first code behind the end does not continue it, for the same reason. -/
theorem Ends.stops {kind : Nat → Prop} {p rest : List Nat} (h : Ends kind (p ++ rest) p) :
    Stops kind rest := by
  intro c hc hkind
  rcases rest with _ | ⟨d, rest⟩
  · exact nomatch hc
  · rw [List.head?_cons, Option.mem_some_iff] at hc
    subst hc
    exact h.final d hkind ((List.prefix_append_right_inj p).mpr ⟨rest, rfl⟩)

theorem Stops.mono {kind other : Nat → Prop} {rest : List Nat} (h : Stops kind rest)
    (hk : ∀ c, other c → kind c) : Stops other rest :=
  fun c hc ho => h c hc (hk c ho)

/-- Digits do not start with a blank or a sign. -/
theorem IsDigits.stops {ds : List Nat} (h : IsDigits ds) (kind : Nat → Prop)
    (hkind : ∀ d, IsDigit d → ¬ kind d) (rest : List Nat) : Stops kind (ds ++ rest) := by
  rcases ds with _ | ⟨d, ds⟩
  · exact absurd rfl h.1
  · exact Stops.cons (hkind d (h.2 d List.mem_cons_self))

/-- A mantissa does not start with a blank or a sign. -/
theorem Mantissa.stops {m before after : List Nat} (h : Mantissa m before after)
    (kind : Nat → Prop) (hkind : ∀ d, IsDigit d → ¬ kind d) (hpoint : ¬ kind 46)
    (rest : List Nat) : Stops kind (m ++ rest) := by
  cases h with
  | whole digits => exact digits.stops kind hkind rest
  | pointed digits others =>
      rw [List.append_assoc]
      exact digits.stops kind hkind _
  | fraction digits => exact Stops.cons hpoint

/-- A mantissa is continued by a digit, before the point or behind it. -/
theorem Mantissa.concat {m before after : List Nat} {c : Nat} (h : Mantissa m before after)
    (hc : IsDigit c) : ∃ before' after', Mantissa (m ++ [c]) before' after' := by
  cases h with
  | whole digits => exact ⟨_, _, .whole (digits.concat hc)⟩
  | pointed digits others =>
      rw [List.append_assoc, List.cons_append]
      refine ⟨_, _, .pointed digits ?_⟩
      intro d hd
      rcases List.mem_append.mp hd with hd | hd
      · exact others d hd
      · rw [List.mem_singleton.mp hd]
        exact hc
  | fraction digits => exact ⟨_, _, .fraction (digits.concat hc)⟩

/-- A mantissa without a point is continued by one. -/
theorem Mantissa.point {m before after : List Nat} (h : Mantissa m before after) (hm : 46 ∉ m) :
    Mantissa (m ++ [46]) before after := by
  cases h with
  | whole digits => exact .pointed digits (fun d hd => absurd hd List.not_mem_nil)
  | pointed digits others =>
      exact absurd (List.mem_append_right _ List.mem_cons_self) hm
  | fraction digits => exact absurd List.mem_cons_self hm

/-- An exponent starts with its mark. -/
theorem Exponent.stops {x : List Nat} {e : Int} (h : Exponent x e) (hne : x ≠ [])
    (kind : Nat → Prop) (rest : List Nat) (small : ¬ kind 101) (capital : ¬ kind 69) :
    Stops kind (x ++ rest) := by
  cases h with
  | none => exact absurd rfl hne
  | marked letter sign digits =>
      refine Stops.cons ?_
      rcases letter with rfl | rfl
      · exact small
      · exact capital

/-- An exponent is continued by a digit. -/
theorem Exponent.concat {x : List Nat} {e : Int} {c : Nat} (h : Exponent x e) (hne : x ≠ [])
    (hc : IsDigit c) : ∃ e', Exponent (x ++ [c]) e' := by
  cases h with
  | none => exact absurd rfl hne
  | marked letter sign digits =>
      rw [List.cons_append, List.append_assoc]
      exact ⟨_, .marked letter sign (digits.concat hc)⟩

/-- What follows the blanks before a number does not start with a blank. -/
theorem Sign.stops {sgn rest : List Nat} {negative : Bool} (h : Sign sgn negative)
    (hrest : Stops IsBlank rest) : Stops IsBlank (sgn ++ rest) := by
  cases h with
  | none => exact hrest
  | plus => exact Stops.cons (by decide)
  | minus => exact Stops.cons (by decide)

/-! ### Numbers are ASCII -/

theorem IsBlank.ascii {n : Nat} (h : IsBlank n) : n < 128 := by
  simp only [IsBlank, List.mem_cons, List.not_mem_nil, or_false] at h
  omega

theorem IsDigit.ascii {n : Nat} (h : IsDigit n) : n < 128 := by
  unfold IsDigit at h
  omega

theorem Sign.ascii {sgn : List Nat} {negative : Bool} (h : Sign sgn negative) :
    ∀ n ∈ sgn, n < 128 := by
  intro n hn
  cases h with
  | none => exact absurd hn List.not_mem_nil
  | plus =>
      rw [List.mem_singleton] at hn
      omega
  | minus =>
      rw [List.mem_singleton] at hn
      omega

theorem Mantissa.ascii {m before after : List Nat} (h : Mantissa m before after) :
    ∀ n ∈ m, n < 128 := by
  intro n hn
  cases h with
  | whole digits => exact (digits.2 n hn).ascii
  | pointed digits others =>
      rcases List.mem_append.mp hn with hn | hn
      · exact (digits.2 n hn).ascii
      · rcases List.mem_cons.mp hn with rfl | hn
        · decide
        · exact (others n hn).ascii
  | fraction digits =>
      rcases List.mem_cons.mp hn with rfl | hn
      · decide
      · exact (digits.2 n hn).ascii

theorem Exponent.ascii {x : List Nat} {e : Int} (h : Exponent x e) : ∀ n ∈ x, n < 128 := by
  intro n hn
  cases h with
  | none => exact absurd hn List.not_mem_nil
  | marked letter sign digits =>
      rcases List.mem_cons.mp hn with rfl | hn
      · omega
      · rcases List.mem_append.mp hn with hn | hn
        · exact sign.ascii n hn
        · exact (digits.2 n hn).ascii

theorem WholeNumber.ascii {p ds : List Nat} {negative : Bool} (h : WholeNumber p negative ds) :
    ∀ n ∈ p, n < 128 := by
  intro n hn
  cases h with
  | mk blank sign digits =>
      rcases List.mem_append.mp hn with hn | hn
      · exact (blank n hn).ascii
      · rcases List.mem_append.mp hn with hn | hn
        · exact sign.ascii n hn
        · exact (digits.2 n hn).ascii

/-- Decimal numbers are ASCII, and so are whole numbers, because all their parts
    are. -/
theorem DecimalNumber.ascii {p : List Nat} {negative : Bool} {q : ℚ}
    (h : DecimalNumber p negative q) :
    ∀ n ∈ p, n < 128 := by
  intro n hn
  cases h with
  | mk blank sign mantissa exponent =>
      rcases List.mem_append.mp hn with hn | hn
      · exact (blank n hn).ascii
      · rcases List.mem_append.mp hn with hn | hn
        · exact sign.ascii n hn
        · rcases List.mem_append.mp hn with hn | hn
          · exact mantissa.ascii n hn
          · exact exponent.ascii n hn

theorem IsNumeral.ascii {n : Nat} (h : IsNumeral n) : n < 128 := by
  simp only [IsNumeral, IsDigit, List.mem_cons, List.not_mem_nil, or_false] at h
  omega

theorem Unfinished.ascii {tail : List Nat} (h : Unfinished tail) : ∀ n ∈ tail, n < 128 := by
  intro n hn
  cases h with
  | point =>
      rw [List.mem_singleton] at hn
      omega
  | mark letter sign =>
      rcases List.mem_cons.mp hn with rfl | hn
      · omega
      · exact sign.ascii n hn

/-! ### What only depends on ASCII -/

/-- Two lists have the same prefixes that are ASCII. -/
def SameAscii (a b : List Nat) : Prop := ∀ p, (∀ n ∈ p, n < 128) → (p <+: a ↔ p <+: b)

/-- The longest prefix of a form of ASCII is the same in two lists with the same
    prefixes of ASCII, and a text and its bytes are two such lists. -/
theorem Longest.congr {form : List Nat → Prop} {a b p : List Nat} (same : SameAscii a b)
    (ascii : ∀ q, form q → ∀ n ∈ q, n < 128) (h : Longest form a p) : Longest form b p := by
  refine ⟨(same p (ascii p h.formed)).mp h.within, h.formed, ?_⟩
  intro q hq hform
  exact h.longest q ((same q (ascii q hform)).mpr hq) hform

theorem Ends.congr {kind : Nat → Prop} {a b p : List Nat} (same : SameAscii a b)
    (ascii : ∀ n ∈ p, n < 128) (kinds : ∀ c, kind c → c < 128) (h : Ends kind a p) :
    Ends kind b p := by
  refine ⟨(same p ascii).mp h.within, ?_⟩
  intro c hc hprefix
  refine h.final c hc ((same _ ?_).mpr hprefix)
  intro n hn
  rcases List.mem_append.mp hn with hn | hn
  · exact ascii n hn
  · rw [List.mem_singleton.mp hn]
    exact kinds c hc

theorem SameAscii.symm {a b : List Nat} (h : SameAscii a b) : SameAscii b a :=
  fun p hp => (h p hp).symm

/-- What stands behind the first code that is not ASCII does not count. In a
    text this is a character, and in its bytes the first byte of several; up to
    there they have the same codes. -/
theorem sameAscii_cut (codes : List Nat) :
    SameAscii codes (codes.takeWhile fun n => decide (n < 128)) := by
  intro p hp
  constructor
  · rintro ⟨rest, rfl⟩
    rw [List.takeWhile_append_of_pos (fun n hn => decide_eq_true (hp n hn))]
    exact List.prefix_append p _
  · intro h
    exact h.trans (List.takeWhile_prefix _)

end Grammar

end RowScope
