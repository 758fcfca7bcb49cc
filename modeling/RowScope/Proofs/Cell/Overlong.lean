import RowScope.Cell.Projection

/-!
# Overlong Numbers

The one thing in a text that cannot be read as an integer: a whole number at its
start with more digits than are read at once. What comes behind the number does
not matter, and neither does what the number is; zeros in front count like other
digits.

The reading scans the text step by step, while an overlong number is described
here by how the text is made up. That both say the same is what allows the limit
to be stated without the scanner.

## Main definitions

* `Text.IsOverlong`: A text starts with a whole number of too many digits.
* `Cell.IsOverlong`: The text form of a cell does.

## Theorems

* `whole?_eq_some`: What the scanner finds in a text that starts with a sign and
  digits.
* `isOverlong_iff`: A text is overlong if and only if the scanner finds too many
  digits.
* `textToInt64_isOk_iff`: A text can be read as an integer if and only if it is
  not overlong.
-/

namespace RowScope

/-- A text starts with a whole number of too many digits, behind any blanks and
    perhaps a sign. -/
def Text.IsOverlong (t : Text) : Prop :=
  ∃ blanks sgn ds rest, t = blanks ++ (sgn ++ (ds ++ rest)) ∧
    (∀ c ∈ blanks, c.isBlank = true) ∧
    (sgn = [] ∨ sgn = [CodePoint.ofChar '+'] ∨ sgn = [CodePoint.ofChar '-']) ∧
    (∀ c ∈ ds, c.isDigit = true) ∧ digitLimit < ds.length

/-- A text or blob whose text is overlong. -/
def Cell.IsOverlong : Cell → Prop
  | .text t => t.IsOverlong
  | .blob bytes => (Text.decode bytes).IsOverlong
  | _ => False

namespace Scan

/-- Blanks in front are skipped, whatever follows them. -/
theorem pastBlanks_append (blanks t : Text) (h : ∀ c ∈ blanks, c.isBlank = true) :
    pastBlanks (blanks ++ t) = pastBlanks t :=
  List.dropWhile_append_of_pos h

theorem pastBlanks_of_not_blank (c : CodePoint) (rest : Text) (h : c.isBlank = false) :
    pastBlanks (c :: rest) = c :: rest := by
  rw [pastBlanks, List.dropWhile_cons_of_neg (by rw [h]; exact Bool.false_ne_true)]

theorem digit_bounds (c : CodePoint) (h : c.isDigit = true) : 48 ≤ c.val ∧ c.val ≤ 57 := by
  rw [CodePoint.isDigit, Bool.and_eq_true, decide_eq_true_eq, decide_eq_true_eq] at h
  exact h

/-- A digit is neither a blank nor a sign, so the scanner stops before it and
    finds no sign there. -/
theorem sign_of_digit (c : CodePoint) (rest : Text) (h : c.isDigit = true) :
    c.isBlank = false ∧ sign (c :: rest) = (false, c :: rest) := by
  rcases digit_bounds c h with ⟨hlow, hhigh⟩
  refine ⟨?_, ?_⟩
  · rw [CodePoint.isBlank, Bool.or_eq_false_iff, beq_eq_false_iff_ne, Bool.and_eq_false_iff,
      decide_eq_false_iff_not, decide_eq_false_iff_not]
    omega
  · rw [sign, if_neg (by omega), if_neg (by omega)]

/-- What the scanner finds in a text that starts with a sign and digits: these
    digits at least. The rest may start with more digits, so only a bound on
    their number is stated, and this is all that the limit asks for. -/
theorem whole?_eq_some (sgn ds rest : Text) (hne : ds ≠ [])
    (hsgn : sgn = [] ∨ sgn = [CodePoint.ofChar '+'] ∨ sgn = [CodePoint.ofChar '-'])
    (hds : ∀ c ∈ ds, c.isDigit = true) :
    ∃ w, whole? (sgn ++ (ds ++ rest)) = some w ∧ ds.length ≤ w.digits.length := by
  rcases ds with _ | ⟨d, more⟩
  · exact absurd rfl hne
  · have hd : d.isDigit = true := hds d List.mem_cons_self
    -- The scanner takes the given digits, and perhaps more from the rest.
    have hbody : ∃ first others, (digits (d :: more ++ rest)).1 = first :: others ∧
        (d :: more).length ≤ (first :: others).length := by
      refine ⟨d.digitValue, (more ++ rest.takeWhile CodePoint.isDigit).map CodePoint.digitValue,
        ?_, ?_⟩
      · rw [digits, List.takeWhile_append_of_pos hds]
        rfl
      · rw [List.length_cons, List.length_cons, List.length_map, List.length_append]
        omega
    rcases hbody with ⟨first, others, hdigits, hlen⟩
    -- Neither a sign nor a digit is a blank, so nothing is skipped.
    have hsigned : ∃ negative, sign (pastBlanks (sgn ++ (d :: more ++ rest))) =
        (negative, d :: more ++ rest) := by
      rcases hsgn with rfl | rfl | rfl
      · rcases sign_of_digit d (more ++ rest) hd with ⟨hblank, hsign⟩
        refine ⟨false, ?_⟩
        rw [List.nil_append, List.cons_append, pastBlanks_of_not_blank d _ hblank, hsign]
      · exact ⟨false, rfl⟩
      · exact ⟨true, rfl⟩
    rcases hsigned with ⟨negative, hsign⟩
    refine ⟨⟨negative, first :: others⟩, ?_, hlen⟩
    simp only [whole?, hsign, hdigits]

/-- A sign, and what follows it, make up the text again. Without a sign all of
    it follows. -/
theorem sign_append (t : Text) : ∃ sgn, t = sgn ++ (sign t).2 ∧
    (sgn = [] ∨ sgn = [CodePoint.ofChar '+'] ∨ sgn = [CodePoint.ofChar '-']) := by
  rcases t with _ | ⟨c, rest⟩
  · exact ⟨[], rfl, Or.inl rfl⟩
  · by_cases hminus : c.val = 45
    · refine ⟨[CodePoint.ofChar '-'], ?_, Or.inr (Or.inr rfl)⟩
      rw [sign, if_pos hminus, show c = CodePoint.ofChar '-' from Fin.ext hminus]
      rfl
    · by_cases hplus : c.val = 43
      · refine ⟨[CodePoint.ofChar '+'], ?_, Or.inr (Or.inl rfl)⟩
        rw [sign, if_neg hminus, if_pos hplus, show c = CodePoint.ofChar '+' from Fin.ext hplus]
        rfl
      · refine ⟨[], ?_, Or.inl rfl⟩
        rw [sign, if_neg hminus, if_neg hplus]
        rfl

/-- The digits that the scanner finds are those behind the blanks and the
    sign. -/
theorem whole?_digits (t : Text) (w : Whole) (h : whole? t = some w) :
    w.digits = (digits (sign (pastBlanks t)).2).1 := by
  rw [whole?] at h
  rcases hs : sign (pastBlanks t) with ⟨negative, body⟩
  rw [hs] at h
  simp only [] at h ⊢
  rcases hd : (digits body).1 with _ | ⟨d, ds⟩
  · rw [hd] at h
    exact nomatch h
  · rw [hd] at h
    simp only [Option.some.injEq] at h
    rw [← h]

end Scan

/-- A text is overlong if and only if the scanner finds too many digits. In one
    direction the scanner runs over a text that is given in pieces, and may find
    more digits than the piece has; in the other what it skips, takes and leaves
    are the pieces. -/
theorem isOverlong_iff (t : Text) :
    t.IsOverlong ↔ ∃ w, Scan.whole? t = some w ∧ digitLimit < w.digits.length := by
  constructor
  · rintro ⟨blanks, sgn, ds, rest, rfl, hblanks, hsgn, hds, hlong⟩
    have hne : ds ≠ [] := fun hc => by
      rw [hc] at hlong
      exact Nat.not_lt_zero _ hlong
    rcases Scan.whole?_eq_some sgn ds rest hne hsgn hds with ⟨w, hw, hlen⟩
    refine ⟨w, ?_, Nat.lt_of_lt_of_le hlong hlen⟩
    rw [Scan.whole?, Scan.pastBlanks_append blanks _ hblanks]
    exact hw
  · -- What the scanner takes and leaves, piece by piece, makes up the text.
    rintro ⟨w, hw, hlong⟩
    rw [Scan.whole?_digits t w hw] at hlong
    rcases Scan.sign_append (Scan.pastBlanks t) with ⟨sgn, hbody, hsgn⟩
    refine ⟨t.takeWhile CodePoint.isBlank, sgn,
      (Scan.sign (Scan.pastBlanks t)).2.takeWhile CodePoint.isDigit,
      (Scan.sign (Scan.pastBlanks t)).2.dropWhile CodePoint.isDigit, ?_,
      List.all_eq_true.mp List.all_takeWhile, hsgn, List.all_eq_true.mp List.all_takeWhile, ?_⟩
    · rw [List.takeWhile_append_dropWhile, ← hbody, Scan.pastBlanks,
        List.takeWhile_append_dropWhile]
    · rw [Scan.digits, List.length_map] at hlong
      exact hlong

/-- An overlong text is refused for its digits, before the number that they
    write is looked at. -/
theorem textToInt64_of_isOverlong (t : Text) (h : t.IsOverlong) :
    textToInt64 t = .error .tooManyDigits := by
  rcases (isOverlong_iff t).mp h with ⟨w, hw, hlong⟩
  simp only [textToInt64, hw, if_neg (Nat.not_le.mpr hlong)]

/-- A text can be read as an integer if and only if it is not overlong. A text
    without a number is read as zero, and a number out of range as the bound, so
    nothing else can go wrong. -/
theorem textToInt64_isOk_iff (t : Text) : (textToInt64 t).isOk = true ↔ ¬ t.IsOverlong := by
  rw [isOverlong_iff, textToInt64]
  rcases hw : Scan.whole? t with _ | w
  · refine ⟨fun _ => ?_, fun _ => rfl⟩
    rintro ⟨w, hc, -⟩
    exact nomatch hc
  · by_cases hlen : w.digits.length ≤ digitLimit
    · simp only [if_pos hlen]
      refine ⟨fun _ => ?_, fun _ => rfl⟩
      rintro ⟨w', hc, hlong⟩
      rw [← Option.some.inj hc] at hlong
      omega
    · simp only [if_neg hlen]
      exact ⟨fun hc => Bool.noConfusion hc, fun hc => absurd ⟨w, rfl, Nat.lt_of_not_le hlen⟩ hc⟩

end RowScope
