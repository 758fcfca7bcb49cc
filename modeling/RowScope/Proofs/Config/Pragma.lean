import Mathlib.Data.List.Forall2
import RowScope.Config.Basic

/-!
# Written Pragmas

Which configurations have SQL for all their pragmas. The only thing that cannot
be written is an integer with too many digits, wherever it stands in a value. So
a configuration without such an integer has one statement for each of its
pragmas, in their order.

## Main definitions

* `Setting.isWritten`: No integer in a setting has too many digits.

## Theorems

* `shown_isOk`, `plain_isOk`: Such a setting can be shown.
* `pragmaStatements_written`: Each pragma has its statement, in order.
-/

namespace RowScope

namespace Setting

mutual

/-- No integer in the setting has more digits than are written at once. -/
def isWritten : Setting → Bool
  | integer n => decide (decimalLength n.natAbs ≤ digitLimit)
  | list values => eachIsWritten values
  | table entries => entriesAreWritten entries
  | _ => true

/-- No integer in the settings of a list has too many digits. -/
def eachIsWritten : List Setting → Bool
  | [] => true
  | s :: rest => isWritten s && eachIsWritten rest

/-- No integer in the entries of a table has too many digits. -/
def entriesAreWritten : List (Text × Setting) → Bool
  | [] => true
  | (_, s) :: rest => isWritten s && entriesAreWritten rest

end

mutual

/-- A setting without overlong integers can be shown. A setting may have others
    in it, to any depth, so lists and tables are followed by recursions of their
    own beside this one. -/
theorem shown_isOk (s : Setting) (h : s.isWritten = true) : ∃ t, s.shown = .ok t := by
  cases s with
  | integer n =>
      have hlength : decimalLength n.natAbs ≤ digitLimit := by
        rw [isWritten] at h
        exact of_decide_eq_true h
      refine ⟨Text.ofInt n, ?_⟩
      simp only [shown, integerText, hlength, if_true]
  | list values =>
      rw [isWritten] at h
      rcases shownEach_isOk values h with ⟨ts, hts⟩
      rw [shown, hts]
      exact ⟨_, rfl⟩
  | table entries =>
      rw [isWritten] at h
      rcases shownEntries_isOk entries h with ⟨ts, hts⟩
      rw [shown, hts]
      exact ⟨_, rfl⟩
  -- No other setting can be too long to be written.
  | null => exact ⟨_, by rw [shown]⟩
  | truth b => exact ⟨_, by rw [shown]⟩
  | real x => exact ⟨_, by rw [shown]⟩
  | text t => exact ⟨_, by rw [shown]⟩
  | bytes b => exact ⟨_, by rw [shown]⟩
  | buffer b => exact ⟨_, by rw [shown]⟩
  | moment m => exact ⟨_, by rw [shown]⟩
  | foreign writing counts => exact ⟨_, by rw [shown]⟩

theorem shownEach_isOk (values : List Setting) (h : eachIsWritten values = true) :
    ∃ ts, shownEach values = .ok ts := by
  cases values with
  | nil => exact ⟨[], by rw [shownEach]⟩
  | cons s rest =>
      rw [eachIsWritten, Bool.and_eq_true] at h
      rcases shown_isOk s h.1 with ⟨t, ht⟩
      rcases shownEach_isOk rest h.2 with ⟨ts, hts⟩
      rw [shownEach, ht, hts]
      exact ⟨_, rfl⟩

theorem shownEntries_isOk (entries : List (Text × Setting))
    (h : entriesAreWritten entries = true) : ∃ ts, shownEntries entries = .ok ts := by
  cases entries with
  | nil => exact ⟨[], by rw [shownEntries]⟩
  | cons entry rest =>
      rcases entry with ⟨name, s⟩
      rw [entriesAreWritten, Bool.and_eq_true] at h
      rcases shown_isOk s h.1 with ⟨t, ht⟩
      rcases shownEntries_isOk rest h.2 with ⟨ts, hts⟩
      rw [shownEntries, ht, hts]
      exact ⟨_, rfl⟩

end

theorem plain_isOk (s : Setting) (h : s.isWritten = true) : ∃ t, s.plain = .ok t := by
  unfold plain
  split
  · exact ⟨_, rfl⟩
  · exact ⟨_, rfl⟩
  · exact shown_isOk s h

end Setting

namespace Config

theorem pragmaStatement_isOk (name : Text) (s : Setting) (h : s.isWritten = true) :
    ∃ sql, pragmaStatement name s = .ok sql := by
  have hvalue : ∃ t, pragmaValue s = .ok t := by
    unfold pragmaValue
    split
    · exact ⟨_, rfl⟩
    · exact ⟨_, rfl⟩
    · exact s.plain_isOk h
  rcases hvalue with ⟨t, ht⟩
  rw [pragmaStatement, ht]
  exact ⟨_, rfl⟩

/-- Each pragma has its statement, in the order of the configuration. The first
    value that could not be written would end the list, so it takes all of them
    to be written for any statement to be there. -/
theorem pragmaStatements_written (c : Config)
    (written : ∀ p ∈ c.pragmas, p.2.isWritten = true) :
    ∃ sqls, c.pragmaStatements = .ok sqls ∧
      List.Forall₂ (fun p sql => pragmaStatement p.1 p.2 = .ok sql) c.pragmas sqls := by
  unfold pragmaStatements
  generalize c.pragmas = pragmas at written ⊢
  induction pragmas with
  | nil => exact ⟨[], rfl, .nil⟩
  | cons p rest ih =>
      rcases pragmaStatement_isOk p.1 p.2 (written p List.mem_cons_self) with ⟨sql, hsql⟩
      rcases ih fun q hq => written q (List.mem_cons_of_mem p hq) with ⟨sqls, hsqls, hall⟩
      refine ⟨sql :: sqls, ?_, .cons hsql hall⟩
      rw [List.mapM_cons, hsql, hsqls]
      rfl

end Config

end RowScope
