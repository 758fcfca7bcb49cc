import Mathlib.Tactic.FieldSimp
import Mathlib.Tactic.NormNum
import RowScope.Number.Scan
import RowScope.Proofs.Number.Grammar

/-!
# The Scanner Finds the Longest Number

The scanner passes over blanks, takes a sign and then as many digits as there
are, and decides by the next code how to go on. It never goes back. That it
finds the longest number nevertheless is because the codes of a number tell
where each of its parts ends: if a text starts with a number and no longer one,
then the scanner takes just its parts, one after the other, since for each part
the code behind it either belongs to the next part, or would make the number
longer if the scanner took it as well.

So it is looked at what the scanner takes from a text that is put together from
a part and a rest. The rest only matters by its first code, which must not
continue the part.

## Theorems

* `digits_of`, `sign_of`, `pastBlanks_of`, `mantissa_of`, `exponent_of`: What is
  taken from a part and a rest.
* `value_digits`: The scanner reads digits as the number they write.
* `whole?_longest`, `decimal?_longest`: The scanner finds the longest number.
* `decimalNumber_unique`: A text is one decimal number at most.
* `decimal?_unfinished`: An unfinished part behind a number does not matter.
* `whole?_absent`, `decimal?_absent`: It finds none where there is none.
-/

namespace RowScope

namespace Scan

open Grammar

/-! ### Kinds of codes -/

theorem isDigit_iff (c : CodePoint) : c.isDigit = true ↔ IsDigit c.val := by
  rw [CodePoint.isDigit, Bool.and_eq_true, decide_eq_true_eq, decide_eq_true_eq, IsDigit]

theorem isBlank_iff (c : CodePoint) : c.isBlank = true ↔ IsBlank c.val := by
  rw [CodePoint.isBlank, Bool.or_eq_true, Bool.and_eq_true, beq_iff_eq, decide_eq_true_eq,
    decide_eq_true_eq]
  simp only [IsBlank, List.mem_cons, List.not_mem_nil, or_false]
  omega

/-! ### Parts of a text -/

/-- A text whose codes are in two parts. -/
theorem codes_split (t : Text) (a b : List Nat) (h : t.codes = a ++ b) :
    ∃ s r : Text, t = s ++ r ∧ s.codes = a ∧ r.codes = b := by
  rcases List.map_eq_append_iff.mp h with ⟨s, r, rfl, hs, hr⟩
  exact ⟨s, r, rfl, hs, hr⟩

/-- A part of one kind is taken if the rest does not continue it. All parts of a
    number but the sign are taken in this way, so this is the one place where a
    text is split. -/
theorem takeWhile_of (kind : Nat → Prop) (p : CodePoint → Bool) (hp : ∀ c, p c = true ↔ kind c.val)
    (s r : Text) (inside : ∀ n ∈ s.codes, kind n) (stops : Stops kind r.codes) :
    (s ++ r).takeWhile p = s ∧ (s ++ r).dropWhile p = r := by
  have hs : ∀ c ∈ s, p c = true := by
    intro c hc
    exact (hp c).mpr (inside c.val (List.mem_map_of_mem hc))
  rw [List.takeWhile_append_of_pos hs, List.dropWhile_append_of_pos hs]
  cases r with
  | nil => exact ⟨List.append_nil s, rfl⟩
  | cons c rest =>
      -- The first code of the rest is where the scanner stops.
      have hc : ¬ p c = true := by
        rw [hp]
        exact stops c.val rfl
      rw [List.takeWhile_cons_of_neg hc, List.dropWhile_cons_of_neg hc, List.append_nil]
      exact ⟨rfl, rfl⟩

/-- Digits are taken. -/
theorem digits_of (t : Text) (ds rest : List Nat) (h : t.codes = ds ++ rest)
    (inside : ∀ d ∈ ds, IsDigit d) (stops : Stops IsDigit rest) :
    ∃ r : Text, digits t = (ds.map (· - 48), r) ∧ r.codes = rest := by
  rcases codes_split t ds rest h with ⟨s, r, rfl, rfl, rfl⟩
  rcases takeWhile_of IsDigit CodePoint.isDigit isDigit_iff s r inside stops with ⟨htake, hdrop⟩
  refine ⟨r, ?_, rfl⟩
  rw [digits, htake, hdrop, Text.codes, List.map_map]
  rfl

/-- Blanks are passed over. -/
theorem pastBlanks_of (t : Text) (blanks rest : List Nat) (h : t.codes = blanks ++ rest)
    (inside : ∀ b ∈ blanks, IsBlank b) (stops : Stops IsBlank rest) :
    (pastBlanks t).codes = rest := by
  rcases codes_split t blanks rest h with ⟨s, r, rfl, rfl, rfl⟩
  rw [pastBlanks, (takeWhile_of IsBlank CodePoint.isBlank isBlank_iff s r inside stops).2]

/-- A sign is taken. -/
theorem sign_of (t : Text) (sgn rest : List Nat) (negative : Bool) (h : t.codes = sgn ++ rest)
    (hs : Sign sgn negative) (stops : Stops (fun n => n = 43 ∨ n = 45) rest) :
    ∃ r : Text, sign t = (negative, r) ∧ r.codes = rest := by
  rcases codes_split t sgn rest h with ⟨s, r, rfl, hcodes, rfl⟩
  cases hs with
  | none =>
      obtain rfl : s = [] := List.map_eq_nil_iff.mp hcodes
      cases r with
      | nil => exact ⟨[], rfl, rfl⟩
      | cons c rest =>
          -- Without a sign the text must not start with one, or it would be
          -- taken.
          have hc : ¬ (c.val = 43 ∨ c.val = 45) := stops c.val rfl
          refine ⟨c :: rest, ?_, rfl⟩
          rw [List.nil_append, sign, if_neg (fun h => hc (Or.inr h)),
            if_neg (fun h => hc (Or.inl h))]
  | plus =>
      rcases List.map_eq_singleton_iff.mp hcodes with ⟨c, rfl, hc⟩
      refine ⟨r, ?_, rfl⟩
      rw [List.singleton_append, sign, if_neg (by omega), if_pos hc]
  | minus =>
      rcases List.map_eq_singleton_iff.mp hcodes with ⟨c, rfl, hc⟩
      refine ⟨r, ?_, rfl⟩
      rw [List.singleton_append, sign, if_pos hc]

/-- A mantissa is taken, if the rest starts with no digit, and with a point only
    if there has been one. -/
theorem mantissa_of (t : Text) (m before after rest : List Nat) (h : t.codes = m ++ rest)
    (hm : Mantissa m before after) (stops : Stops IsDigit rest)
    (pointless : 46 ∉ m → Stops (· = 46) rest) :
    ∃ r : Text, mantissa? t = some (before.map (· - 48), after.map (· - 48), r) ∧
      r.codes = rest := by
  -- A point does not continue the digits before it.
  have point : ∀ rest, Stops IsDigit (46 :: rest) := fun rest => Stops.cons (by decide)
  cases hm with
  | whole hdigits =>
      have hnone : 46 ∉ m := by
        intro hc
        exact absurd (hdigits.2 46 hc) (by decide)
      rcases digits_of t m rest h hdigits.2 stops with ⟨r, hr, rfl⟩
      rcases m with _ | ⟨d, ds⟩
      · exact absurd rfl hdigits.1
      · refine ⟨r, ?_, rfl⟩
        cases r with
        | nil => simp only [mantissa?, hr, List.map_cons, List.map_nil]
        | cons c r =>
            have hc : ¬ c.val = 46 := pointless hnone c.val rfl
            simp only [mantissa?, hr, List.map_cons, List.map_nil, hc, if_false]
  | pointed hdigits hothers =>
      rw [List.append_assoc, List.cons_append] at h
      rcases digits_of t before _ h hdigits.2 (point _) with ⟨r, hr, hrest⟩
      rcases List.map_eq_cons_iff.mp hrest with ⟨c, r', rfl, hc, hcodes⟩
      rcases digits_of r' after rest hcodes hothers stops with ⟨r, hr', rfl⟩
      rcases before with _ | ⟨d, ds⟩
      · exact absurd rfl hdigits.1
      · refine ⟨r, ?_, rfl⟩
        simp only [mantissa?, hr, List.map_cons, hc, if_true, hr']
  | fraction hdigits =>
      rw [List.cons_append] at h
      rcases digits_of t [] _ h (fun d hd => absurd hd List.not_mem_nil) (point _) with
        ⟨r, hr, hrest⟩
      rcases List.map_eq_cons_iff.mp hrest with ⟨c, r', rfl, hc, hcodes⟩
      rcases digits_of r' after rest hcodes hdigits.2 stops with ⟨r, hr', rfl⟩
      rcases after with _ | ⟨d, ds⟩
      · exact absurd rfl hdigits.1
      · refine ⟨r, ?_, rfl⟩
        simp only [mantissa?, hr, List.map_nil, List.map_cons, hc, if_true, hr']

/-- The scanner reads digits as the number they write. -/
theorem value_digits (ds : List Nat) : value (ds.map (· - 48)) = number ds := by
  rw [number, Nat.ofDigits_eq_foldr, List.map_reverse, List.foldr_reverse, value]
  congr 1
  funext n d
  rw [Nat.cast_id, Nat.mul_comm, Nat.add_comm]

/-- An exponent is taken, if the rest does not start with one more digit. -/
theorem exponent_of (t : Text) (x rest : List Nat) (e : Int) (h : t.codes = x ++ rest)
    (hx : Exponent x e) (hne : x ≠ []) (stops : Stops IsDigit rest) :
    (exponent t).1 = e := by
  cases hx with
  | none => exact absurd rfl hne
  | @marked mark sgn ds negative letter hsign hdigits =>
      rw [List.cons_append, List.append_assoc] at h
      rcases List.map_eq_cons_iff.mp h with ⟨c, r, rfl, hc, hcodes⟩
      -- The digits behind a sign start with a digit, so no second sign is
      -- taken.
      have hunsigned : Stops (fun n => n = 43 ∨ n = 45) (ds ++ rest) := by
        rcases ds with _ | ⟨d, ds⟩
        · exact absurd rfl hdigits.1
        · have hd : IsDigit d := hdigits.2 d List.mem_cons_self
          unfold IsDigit at hd
          exact Stops.cons (by omega)
      rcases sign_of r sgn _ negative hcodes hsign hunsigned with ⟨r', hr', hcodes'⟩
      rcases digits_of r' ds rest hcodes' hdigits.2 stops with ⟨r'', hr'', -⟩
      have hmark : (c.val = 101 || c.val = 69) = true := by
        rw [Bool.or_eq_true, decide_eq_true_eq, decide_eq_true_eq, hc]
        exact letter
      have hvalue := value_digits ds
      rcases ds with _ | ⟨d, ds⟩
      · exact absurd rfl hdigits.1
      · rw [List.map_cons] at hvalue hr''
        simp only [exponent, hmark, if_true, hr', hr'', hvalue]

/-! ### What the scanner takes -/

/-- The digits that are taken, and what is left. -/
theorem digits_sound (t : Text) : ∃ ds : List Nat, t.codes = ds ++ (digits t).2.codes ∧
    (digits t).1 = ds.map (· - 48) ∧ ∀ d ∈ ds, IsDigit d := by
  refine ⟨Text.codes (t.takeWhile CodePoint.isDigit), ?_, ?_, ?_⟩
  · rw [digits, Text.codes, Text.codes, Text.codes, ← List.map_append,
      List.takeWhile_append_dropWhile]
  · rw [digits, Text.codes, List.map_map]
    rfl
  · intro d hd
    rcases List.mem_map.mp hd with ⟨c, hc, rfl⟩
    exact (isDigit_iff c).mp (List.all_eq_true.mp List.all_takeWhile c hc)

/-- The sign that is taken, and what is left. -/
theorem sign_sound (t : Text) : ∃ sgn : List Nat, t.codes = sgn ++ (sign t).2.codes ∧
    Sign sgn (sign t).1 := by
  rcases t with _ | ⟨c, rest⟩
  · exact ⟨[], rfl, Sign.none⟩
  · by_cases hminus : c.val = 45
    · rw [sign, if_pos hminus]
      exact ⟨[45], congrArg (· :: Text.codes rest) hminus, Sign.minus⟩
    · by_cases hplus : c.val = 43
      · rw [sign, if_neg hminus, if_pos hplus]
        exact ⟨[43], congrArg (· :: Text.codes rest) hplus, Sign.plus⟩
      · rw [sign, if_neg hminus, if_neg hplus]
        exact ⟨[], rfl, Sign.none⟩

/-- The blanks that are passed over, and what is left. -/
theorem pastBlanks_sound (t : Text) : ∃ blanks : List Nat,
    t.codes = blanks ++ (pastBlanks t).codes ∧ ∀ b ∈ blanks, IsBlank b := by
  refine ⟨Text.codes (t.takeWhile CodePoint.isBlank), ?_, ?_⟩
  · rw [pastBlanks, Text.codes, Text.codes, Text.codes, ← List.map_append,
      List.takeWhile_append_dropWhile]
  · intro b hb
    rcases List.mem_map.mp hb with ⟨c, hc, rfl⟩
    exact (isBlank_iff c).mp (List.all_eq_true.mp List.all_takeWhile c hc)

/-- The digits before and after the point that are taken, and what is left. What
    is taken is a mantissa whatever the text is: a point alone is not taken, and
    a point behind digits is, also if no digits follow it. -/
theorem mantissa_sound (t r : Text) (b a : List Nat) (h : mantissa? t = some (b, a, r)) :
    ∃ m before after : List Nat, t.codes = m ++ r.codes ∧ Mantissa m before after := by
  rcases digits_sound t with ⟨ds, hcodes, hds, hdigit⟩
  rcases hd : digits t with ⟨first, rest⟩
  rw [hd] at hcodes hds
  simp only [] at hcodes hds
  cases ds with
  | nil =>
      -- Only a point may follow, and digits behind it.
      rw [List.map_nil] at hds
      subst hds
      rcases rest with _ | ⟨c, rest⟩
      · simp only [mantissa?, hd] at h
        exact nomatch h
      · by_cases hc : c.val = 46
        · rcases digits_sound rest with ⟨after, hafter, hvalues, hothers⟩
          rcases hd' : digits rest with ⟨second, left⟩
          rw [hd'] at hafter hvalues
          simp only [mantissa?, hd, hc, if_true, hd'] at h
          rcases after with _ | ⟨d, ds⟩
          · simp only [List.map_nil] at hvalues
            subst hvalues
            exact nomatch h
          · simp only [List.map_cons] at hvalues
            subst hvalues
            simp only [Option.some.injEq, Prod.mk.injEq] at h
            rcases h with ⟨rfl, rfl, rfl⟩
            refine ⟨46 :: (d :: ds), [], d :: ds, ?_,
              .fraction ⟨List.cons_ne_nil d ds, hothers⟩⟩
            rw [hcodes, List.nil_append, List.cons_append, ← hafter, ← hc]
            rfl
        · simp only [mantissa?, hd, hc, if_false] at h
          exact nomatch h
  | cons d ds =>
      -- With digits in front a point may follow, and needs no digits behind it.
      have hdigits : IsDigits (d :: ds) := ⟨List.cons_ne_nil d ds, hdigit⟩
      rw [List.map_cons] at hds
      subst hds
      rcases rest with _ | ⟨c, rest⟩
      · simp only [mantissa?, hd, Option.some.injEq, Prod.mk.injEq] at h
        rcases h with ⟨rfl, rfl, rfl⟩
        exact ⟨d :: ds, d :: ds, [], hcodes, .whole hdigits⟩
      · by_cases hc : c.val = 46
        · rcases digits_sound rest with ⟨after, hafter, -, hothers⟩
          simp only [mantissa?, hd, hc, if_true, Option.some.injEq, Prod.mk.injEq] at h
          rcases h with ⟨rfl, rfl, rfl⟩
          have hpoint : Text.codes (c :: rest) = 46 :: after ++ (digits rest).2.codes := by
            rw [List.cons_append, ← hafter, ← hc]
            rfl
          refine ⟨d :: ds ++ 46 :: after, d :: ds, after, ?_, .pointed hdigits hothers⟩
          rw [hcodes, hpoint, List.append_assoc]
        · simp only [mantissa?, hd, hc, if_false, Option.some.injEq, Prod.mk.injEq] at h
          rcases h with ⟨rfl, rfl, rfl⟩
          exact ⟨d :: ds, d :: ds, [], hcodes, .whole hdigits⟩

/-- The exponent that is taken, if it is one. A mark without digits behind it is
    left, and then it counts for nothing. -/
theorem exponent_sound (t : Text) : (exponent t).1 = 0 ∨
    ∃ x e rest, t.codes = x ++ rest ∧ x ≠ [] ∧ Exponent x e := by
  rcases t with _ | ⟨c, rest⟩
  · exact Or.inl rfl
  · by_cases hmark : (c.val = 101 || c.val = 69) = true
    · rcases sign_sound rest with ⟨sgn, hsgn, hsign⟩
      rcases digits_sound (sign rest).2 with ⟨ds, hds, hvalues, hdigit⟩
      rcases ds with _ | ⟨d, ds⟩
      · -- Without digits there is no exponent.
        left
        rcases hs : sign rest with ⟨negative, body⟩
        rw [hs] at hvalues
        rcases hd : digits body with ⟨first, left⟩
        simp only [hd, List.map_nil] at hvalues
        subst hvalues
        simp only [exponent, hmark, if_true, hs, hd]
      · right
        refine ⟨c.val :: (sgn ++ d :: ds), _, (digits (sign rest).2).2.codes, ?_,
          List.cons_ne_nil _ _, .marked ?_ hsign ⟨List.cons_ne_nil d ds, hdigit⟩⟩
        · rw [List.cons_append, List.append_assoc, ← hds, ← hsgn]
          rfl
        · rw [Bool.or_eq_true, decide_eq_true_eq, decide_eq_true_eq] at hmark
          exact hmark
    · left
      simp only [exponent, hmark]
      rfl

/-! ### The longest number -/

/-- The scanner finds the longest whole number. The only code that could
    continue it is a digit, and a digit behind it would make it longer; so the
    scanner stops where the number ends. -/
theorem whole?_longest (t : Text) (p ds : List Nat) (negative : Bool)
    (longest : Longest IsWhole t.codes p) (hp : WholeNumber p negative ds) :
    whole? t = some ⟨negative, ds.map (· - 48)⟩ := by
  obtain ⟨rest, hrest⟩ := longest.within
  rw [← hrest] at longest
  cases hp with
  | @mk blanks sgn ds negative blank hsign hdigits =>
      -- One more digit would make the number longer.
      have hstops : Stops IsDigit rest := by
        refine longest.stops IsDigit ?_
        intro c hc
        rw [List.append_assoc, List.append_assoc]
        exact ⟨negative, ds ++ [c], .mk blank hsign (hdigits.concat hc)⟩
      rw [List.append_assoc, List.append_assoc] at hrest
      have hblank := pastBlanks_of t blanks _ hrest.symm blank
        (hsign.stops (hdigits.stops _ (fun _ => IsDigit.not_blank) rest))
      rcases sign_of _ sgn _ negative hblank hsign
        (hdigits.stops _ (fun d hd => by unfold IsDigit at hd; omega) rest) with ⟨r, hr, hcodes⟩
      rcases digits_of r ds rest hcodes hdigits.2 hstops with ⟨r', hr', -⟩
      rcases ds with _ | ⟨d, ds⟩
      · exact absurd rfl hdigits.1
      · rw [List.map_cons] at hr'
        simp only [whole?, hr, hr', List.map_cons]

/-- The scanner finds no whole number where there is none. What it takes would
    be one, since it does not succeed without a digit. -/
theorem whole?_absent (t : Text) (none_ : ∀ p, p <+: t.codes → ¬ IsWhole p) : whole? t = none := by
  rcases h : whole? t with _ | w
  · rfl
  · exfalso
    rcases pastBlanks_sound t with ⟨blanks, hblanks, hblank⟩
    rcases sign_sound (pastBlanks t) with ⟨sgn, hsgn, hsign⟩
    rcases digits_sound (sign (pastBlanks t)).2 with ⟨ds, hds, hvalues, hdigit⟩
    -- What is taken is a number, since there are digits.
    refine none_ (blanks ++ (sgn ++ ds)) ?_ ⟨_, ds, .mk hblank hsign ⟨?_, hdigit⟩⟩
    · rw [hblanks, hsgn, hds]
      exact ⟨(digits (sign (pastBlanks t)).2).2.codes, by simp only [List.append_assoc]⟩
    · intro hnil
      rw [hnil, List.map_nil] at hvalues
      rw [whole?] at h
      simp only [hvalues] at h
      exact nomatch h

/-- What the scanner takes is the number that its parts denote. -/
theorem decimal_value (before after : List Nat) (e : Int) :
    ((value (before.map (· - 48) ++ after.map (· - 48)) : Nat) : ℚ) *
        10 ^ (e - ((after.map (· - 48)).length : Nat)) =
      (number before + number after / 10 ^ after.length) * 10 ^ e := by
  rw [← List.map_append, value_digits, number_append, List.length_map, zpow_sub₀ (by norm_num),
    zpow_natCast]
  push_cast
  field_simp

/-- The scanner takes a mantissa and an exponent if no longer ones are there. It
    decides by one code what to do next, so it has to be shown that each code at
    which it goes on would have made the number longer, and that it does not go
    on anywhere else. -/
theorem unsigned_of (t : Text) (m x before after rest : List Nat) (e : Int)
    (h : t.codes = m ++ (x ++ rest)) (hm : Mantissa m before after) (hx : Exponent x e)
    (longest : Longest IsUnsigned (m ++ (x ++ rest)) (m ++ x)) :
    ∃ r : Text, mantissa? t = some (before.map (· - 48), after.map (· - 48), r) ∧
      (exponent r).1 = e := by
  rw [← List.append_assoc] at longest
  cases hx with
  | none =>
      rw [List.append_nil] at longest
      -- A digit, a point and an exponent would all make the number longer.
      have hdigit : Stops IsDigit rest := by
        refine longest.stops IsDigit ?_
        intro c hc
        rcases hm.concat hc with ⟨b, a, hc⟩
        exact ⟨m ++ [c], [], b, a, 0, (List.append_nil _).symm, hc, .none⟩
      have hpoint : 46 ∉ m → Stops (· = 46) rest := by
        intro hnone
        refine longest.stops _ ?_
        rintro c rfl
        exact ⟨m ++ [46], [], before, after, 0, (List.append_nil _).symm, hm.point hnone, .none⟩
      rcases mantissa_of t m before after rest h hm hdigit hpoint with ⟨r, hr, hcodes⟩
      refine ⟨r, hr, ?_⟩
      rcases exponent_sound r with hzero | ⟨x, e, left, hleft, hne, hx⟩
      · exact hzero
      · rw [hcodes] at hleft
        exact absurd ⟨m, x, before, after, e, rfl, hm, hx⟩
          (longest.not_longer x ⟨left, hleft.symm⟩ hne)
  | @marked mark sgn ds negative letter hsign hdigits =>
      have hx := Exponent.marked letter hsign hdigits
      have hne : mark :: (sgn ++ ds) ≠ [] := List.cons_ne_nil _ _
      -- Behind an exponent only a digit would make the number longer.
      have hdigit : Stops IsDigit rest := by
        refine longest.stops IsDigit ?_
        intro c hc
        rcases hx.concat hne hc with ⟨e', hc⟩
        exact ⟨m, _, before, after, e', List.append_assoc _ _ _, hm, hc⟩
      have hmark : ∀ kind : Nat → Prop, ¬ kind 101 → ¬ kind 69 →
          Stops kind (mark :: (sgn ++ ds) ++ rest) := fun kind => hx.stops hne kind rest
      rcases mantissa_of t m before after _ h hm (hmark IsDigit (by decide) (by decide))
        (fun _ => hmark _ (by decide) (by decide)) with ⟨r, hr, hcodes⟩
      exact ⟨r, hr, exponent_of r _ rest _ hcodes hx hne hdigit⟩

/-- What the scanner finds, if it takes the mantissa and the exponent of a
    number. -/
theorem decimal?_of (t : Text) (blanks sgn m before after rest : List Nat) (negative : Bool)
    (e : Int) (h : t.codes = blanks ++ (sgn ++ (m ++ rest))) (blank : ∀ b ∈ blanks, IsBlank b)
    (hsign : Sign sgn negative) (hm : Mantissa m before after)
    (taken : ∀ r : Text, r.codes = m ++ rest → ∃ r' : Text,
      mantissa? r = some (before.map (· - 48), after.map (· - 48), r') ∧ (exponent r').1 = e) :
    ∃ d, decimal? t = some d ∧ d.negative = negative ∧
      (d.coefficient : ℚ) * 10 ^ d.exponent =
        (number before + number after / 10 ^ after.length) * 10 ^ e := by
  have hbegins := fun kind hkind hpoint => hm.stops kind hkind hpoint rest
  have hblank := pastBlanks_of t blanks _ h blank
    (hsign.stops (hbegins _ (fun _ => IsDigit.not_blank) (by decide)))
  rcases sign_of _ sgn _ negative hblank hsign
    (hbegins _ (fun d hd => by unfold IsDigit at hd; omega) (by omega)) with ⟨r, hr, hcodes⟩
  rcases taken r hcodes with ⟨r', hr', he⟩
  refine ⟨⟨negative, value (before.map (· - 48) ++ after.map (· - 48)),
    e - ((after.map (· - 48)).length : Nat)⟩, ?_, rfl, decimal_value before after e⟩
  rw [decimal?, unblanked?]
  simp only [hr, hr', he, Option.map_some]

/-- The scanner finds the longest decimal number. Blanks and sign are in front
    of all prefixes that are numbers, so that the longest number gives the
    longest mantissa and exponent, and these are taken. -/
theorem decimal?_longest (t : Text) (p : List Nat) (negative : Bool) (q : ℚ)
    (longest : Longest IsDecimal t.codes p) (hp : DecimalNumber p negative q) :
    ∃ d, decimal? t = some d ∧ d.negative = negative ∧
      (d.coefficient : ℚ) * 10 ^ d.exponent = q := by
  obtain ⟨rest, hrest⟩ := longest.within
  rw [← hrest] at longest
  cases hp with
  | @mk blanks sgn m x before after negative e blank hsign hm hx =>
      -- What is in front of the mantissa does not matter for which prefix is
      -- the longest.
      have hunsigned : Longest IsUnsigned (m ++ (x ++ rest)) (m ++ x) := by
        have hlongest : Longest IsDecimal (blanks ++ sgn ++ (m ++ (x ++ rest)))
            (blanks ++ sgn ++ (m ++ x)) := by
          simpa only [List.append_assoc] using longest
        refine hlongest.of_append (blanks ++ sgn) ⟨m, x, before, after, e, rfl, hm, hx⟩ ?_
        rintro q ⟨m, x, before, after, e, rfl, hm, hx⟩
        rw [List.append_assoc]
        exact ⟨negative, _, .mk blank hsign hm hx⟩
      simp only [List.append_assoc] at hrest
      refine decimal?_of t blanks sgn m before after (x ++ rest) negative e hrest.symm blank hsign
        hm ?_
      intro r hcodes
      exact unsigned_of r m x before after rest e hcodes hm hx hunsigned

/-- A text is one decimal number at most. It is its own longest prefix, and the
    scanner finds just one number. So a form of numbers that is given by rules
    denotes what it is read as. -/
theorem decimalNumber_unique (t : Text) {negative other : Bool} {q r : ℚ}
    (hq : DecimalNumber t.codes negative q) (hr : DecimalNumber t.codes other r) :
    negative = other ∧ q = r := by
  have longest : Longest IsDecimal t.codes t.codes := Longest.self ⟨negative, q, hq⟩
  rcases decimal?_longest t t.codes negative q longest hq with ⟨d, hd, rfl, rfl⟩
  rcases decimal?_longest t t.codes other r longest hr with ⟨d', hd', rfl, rfl⟩
  rw [hd, Option.some.injEq] at hd'
  rw [hd']
  exact ⟨rfl, rfl⟩

/-- No exponent is taken where none begins. -/
theorem exponent_unmarked (t : Text) (h : Stops (fun n => n = 101 ∨ n = 69) t.codes) :
    (exponent t).1 = 0 := by
  rcases t with _ | ⟨c, rest⟩
  · rfl
  · have hc : ¬ (c.val = 101 ∨ c.val = 69) := h c.val rfl
    have hmark : ¬ (c.val = 101 || c.val = 69) = true := by
      rw [Bool.or_eq_true, decide_eq_true_eq, decide_eq_true_eq]
      exact hc
    simp only [exponent, hmark]
    rfl

/-- No exponent is taken where one begins that has no digits. -/
theorem exponent_incomplete (t : Text) (mark : Nat) (sgn rest : List Nat) (negative : Bool)
    (h : t.codes = mark :: (sgn ++ rest)) (hsign : Sign sgn negative)
    (stops : Stops IsNumeral rest) : (exponent t).1 = 0 := by
  rcases List.map_eq_cons_iff.mp h with ⟨c, r, rfl, hc, hcodes⟩
  have hunsigned : Stops (fun n => n = 43 ∨ n = 45) rest := by
    refine stops.mono ?_
    intro c hc
    simp only [IsNumeral, List.mem_cons, List.not_mem_nil, or_false]
    omega
  rcases sign_of r sgn rest negative hcodes hsign hunsigned with ⟨r', hr', hcodes'⟩
  rcases digits_of r' [] rest hcodes' (fun d hd => absurd hd List.not_mem_nil)
    (stops.mono fun c => Or.inl) with ⟨r'', hr'', -⟩
  by_cases hmark : (c.val = 101 || c.val = 69) = true
  · simp only [exponent, hmark, if_true, hr', hr'', List.map_nil]
  · simp only [exponent, hmark]
    rfl

/-- The scanner takes a mantissa and an exponent and, of an unfinished part
    behind them, a point at most. The parts are no numbers, but they begin like
    the rest of one, so the scanner has to be followed into them: it comes back
    from a mark, and keeps a point without changing the number. -/
theorem unsigned_unfinished (t : Text) (m x before after tail rest : List Nat) (e : Int)
    (h : t.codes = m ++ (x ++ (tail ++ rest))) (hm : Mantissa m before after) (hx : Exponent x e)
    (ht : Unfinished tail) (stops : Stops IsNumeral rest) :
    ∃ r : Text, mantissa? t = some (before.map (· - 48), after.map (· - 48), r) ∧
      (exponent r).1 = e := by
  have hdigit : Stops IsDigit rest := stops.mono fun c => Or.inl
  have hmark : Stops (fun n => n = 101 ∨ n = 69) rest := by
    refine stops.mono ?_
    intro c hc
    simp only [IsNumeral, List.mem_cons, List.not_mem_nil, or_false]
    omega
  -- No unfinished part begins with a digit.
  have htail : Stops IsDigit (tail ++ rest) := by
    cases ht with
    | point => exact Stops.cons (by decide)
    | mark letter sign =>
        refine Stops.cons ?_
        unfold IsDigit
        omega
  cases hx with
  | none =>
      rw [List.nil_append] at h
      cases ht with
      | point =>
          -- A second point ends the mantissa, and the first one does not.
          by_cases hpoint : 46 ∈ m
          · rcases mantissa_of t m before after _ h hm htail (fun hc => absurd hpoint hc) with
              ⟨r, hr, hcodes⟩
            refine ⟨r, hr, exponent_unmarked r ?_⟩
            rw [hcodes]
            exact Stops.cons (by decide)
          · -- The point belongs to the mantissa, with no digits behind it.
            rw [← List.append_assoc] at h
            rcases mantissa_of t _ before after rest h (hm.point hpoint) hdigit
              (fun hc => absurd (List.mem_append_right m List.mem_cons_self) hc) with
              ⟨r, hr, hcodes⟩
            refine ⟨r, hr, exponent_unmarked r ?_⟩
            rw [hcodes]
            exact hmark
      | @mark mark sgn negative letter hsign =>
          -- The scanner looks behind the mark, finds no digits, and leaves it.
          have hpoint : 46 ∉ m → Stops (· = 46) (mark :: sgn ++ rest) := by
            intro _
            exact Stops.cons (by omega)
          rcases mantissa_of t m before after _ h hm htail hpoint with ⟨r, hr, hcodes⟩
          exact ⟨r, hr, exponent_incomplete r mark sgn rest negative hcodes hsign stops⟩
  | @marked mark sgn ds negative letter hsign hdigits =>
      have hx := Exponent.marked letter hsign hdigits
      have hbegin : ∀ kind : Nat → Prop, ¬ kind 101 → ¬ kind 69 →
          Stops kind (mark :: (sgn ++ ds) ++ (tail ++ rest)) :=
        fun kind => hx.stops (List.cons_ne_nil _ _) kind (tail ++ rest)
      rcases mantissa_of t m before after _ h hm (hbegin IsDigit (by decide) (by decide))
        (fun _ => hbegin _ (by decide) (by decide)) with ⟨r, hr, hcodes⟩
      exact ⟨r, hr, exponent_of r _ _ _ hcodes hx (List.cons_ne_nil _ _) htail⟩

/-- An unfinished part behind a decimal number does not change what the scanner
    finds, if nothing behind the part could finish it. -/
theorem decimal?_unfinished (t : Text) (p tail : List Nat) (negative : Bool) (q : ℚ)
    (hp : DecimalNumber p negative q) (ht : Unfinished tail)
    (ends : Ends IsNumeral t.codes (p ++ tail)) :
    ∃ d, decimal? t = some d ∧ d.negative = negative ∧
      (d.coefficient : ℚ) * 10 ^ d.exponent = q := by
  obtain ⟨rest, hrest⟩ := ends.within
  rw [← hrest] at ends
  cases hp with
  | @mk blanks sgn m x before after negative e blank hsign hm hx =>
      simp only [List.append_assoc] at hrest
      refine decimal?_of t blanks sgn m before after (x ++ (tail ++ rest)) negative e hrest.symm
        blank hsign hm ?_
      intro r hcodes
      exact unsigned_unfinished r m x before after tail rest e hcodes hm hx ht ends.stops

/-- The scanner finds no decimal number where there is none. -/
theorem decimal?_absent (t : Text) (none_ : ∀ p, p <+: t.codes → ¬ IsDecimal p) :
    decimal? t = none := by
  rcases pastBlanks_sound t with ⟨blanks, hblanks, hblank⟩
  rcases sign_sound (pastBlanks t) with ⟨sgn, hsgn, hsign⟩
  rcases h : mantissa? (sign (pastBlanks t)).2 with _ | ⟨b, a, r⟩
  · rw [decimal?, unblanked?]
    simp only [h, Option.map_none]
  · exfalso
    rcases mantissa_sound _ r b a h with ⟨m, before, after, hcodes, hm⟩
    -- A mantissa is a number without an exponent already.
    refine none_ (blanks ++ (sgn ++ (m ++ []))) ?_ ⟨_, _, .mk hblank hsign hm .none⟩
    rw [hblanks, hsgn, hcodes, List.append_nil]
    exact ⟨r.codes, by simp only [List.append_assoc]⟩

end Scan

end RowScope
