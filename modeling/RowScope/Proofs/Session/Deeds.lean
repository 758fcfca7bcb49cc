import Mathlib.Data.List.Induction
import RowScope.Proofs.Session.Names
import RowScope.Proofs.Session.Passage

/-!
# Deeds

A run as the list of its *deeds*, each of them a command together with the
session in which it was performed. What has happened to a statement is not in
its state, but it can be read off the deeds: when it was stepped last, what that
step reported, which rows it was given.

For what is in the state there is an induction: an invariant of statements that
every permitted passage keeps holds of every statement in every session that can
be reached.

## Main definitions

* `Deed`, `Session.deeds`: A command in its session, and those of a run.
* `Deed.calls`, `Deed.gotRow`: The deed was a call on a statement, and one that
  obtained a row.
* `Session.rowOf`, `Session.nextRow?`: The current row of a statement, and the
  one it delivers next.

## Theorems

* `deeds_concat`: The last deed of a run.
* `deeds_unmade`: A statement that is not there yet was not called.
* `reachable_statement`: The induction over the commands that lead to a session.
* `gotRow_of_told`, `passed_of_told`: What a step said to itself can be read off
  its report.
* `reachable_idle`: A statement that was not stepped, or ran to completion, has
  no row.
-/

namespace RowScope

/-- A command, with the session in which it is performed. -/
structure Deed where
  before : Session
  command : Command

namespace Deed

/-- The session after a deed. -/
def after (e : Engine) (d : Deed) : Session := (d.before.perform e d.command).2

/-- What a deed reports. -/
def answer (e : Engine) (d : Deed) : Except Fault Value := (d.before.perform e d.command).1.answer

/-- A deed steps or resets a statement that there is. -/
def calls (id : StatementId) (d : Deed) : Bool :=
  d.command.moved? == some id && d.before.statements[id]?.isSome

/-- A deed was a step that obtained a row: it says so, or complains about it. -/
def gotRow (e : Engine) (d : Deed) : Bool :=
  match d.command, d.answer e with
  | .step _, .ok (.truth more) => more
  | .exec _, .error (.access x) => x == .unexpectedRow
  | _, _ => false

/-- A failure of the engine passed through a deed unchanged. -/
def passed (e : Engine) (d : Deed) : Bool :=
  match d.answer e with
  | .error (.engine _) => true
  | _ => false

end Deed

namespace Session

/-- The deeds of a run. -/
def deeds (e : Engine) : List Command → Session → List Deed
  | [], _ => []
  | c :: rest, s => ⟨s, c⟩ :: deeds e rest (s.perform e c).2

/-- The current row of a statement. -/
def rowOf (s : Session) (id : StatementId) : Option Row :=
  (s.statement? id).bind (·.2.row)

/-- The row that the next fetch of a statement delivers, if it delivers one. -/
def nextRow? (e : Engine) (s : Session) (id : StatementId) : Option Row :=
  match s.statement? id with
  | none => none
  | some (st, handle) =>
    match s.readied e st handle with
    | .error _ => none
    | .ok c => match c.pending with
      | .ok row :: _ => some row
      | _ => none

theorem deeds_concat (e : Engine) (cs : List Command) (c : Command) (s : Session) :
    s.deeds e (cs ++ [c]) = s.deeds e cs ++ [⟨(s.run e cs).2, c⟩] := by
  induction cs generalizing s with
  | nil => rfl
  | cons first rest ih =>
      simp only [List.cons_append, deeds, ih]
      rfl

theorem rowOf_found {s : Session} {id : StatementId} {st : Statement} {handle : Handle}
    (found : s.statement? id = some (st, handle)) : s.rowOf id = handle.row := by
  rw [rowOf, found, Option.bind_some]

/-- A statement that is not there yet was not called. -/
theorem deeds_unmade (e : Engine) (cs : List Command) (s : Session) (id : StatementId)
    (unmade : (s.run e cs).2.statements[id]? = none) :
    (s.deeds e cs).filter (Deed.calls id) = [] := by
  induction cs using List.reverseRecOn with
  | nil => rfl
  | append_singleton cs c ih =>
      rw [run_concat] at unmade
      rcases hst : (s.run e cs).2.statements[id]? with _ | st
      · rw [deeds_concat, List.filter_append, ih hst, List.nil_append]
        simp only [List.filter_cons, Deed.calls, hst, Option.isSome_none, Bool.and_false,
          Bool.false_eq_true, if_false, List.filter_nil]
      · -- No statement is ever removed.
        rcases (perform_leads e c _).statement_kept id st hst with ⟨st', hst', -⟩
        rw [unmade] at hst'
        cases hst'

theorem Reachable.mono {e : Engine} {allowed more : Command → Prop} {s : Session}
    (hs : Reachable e allowed s) (h : ∀ c, allowed c → more c) : Reachable e more s := by
  induction hs with
  | start path config here => exact .start path config here
  | perform c _ permitted ih => exact ih.perform c (h c permitted)

/-- An invariant of statements that every permitted passage keeps holds of every
    statement in every session that can be reached. In a passage the invariant
    may be assumed of the statement as it was before, if it was there. -/
theorem reachable_statement (e : Engine) (allowed : Command → Prop) (I : Statement → Handle → Prop)
    (hpassage : ∀ s t id c answer st' handle', Reachable e allowed s → allowed c →
      (∀ st handle, s.statement? id = some (st, handle) → I st handle) →
      Passage e s t id c answer st' handle' → I st' handle')
    (s : Session) (hs : Reachable e allowed s) (id : StatementId) (st : Statement) (handle : Handle)
    (found : s.statement? id = some (st, handle)) : I st handle := by
  -- A session just made has no statement.
  induction hs generalizing st handle with
  | start path config here => cases found
  | @perform s c before permitted ih =>
      exact hpassage s _ id c _ st handle before permitted ih
        (perform_passage e c s (reachable_separate e allowed s before) id st handle found)

end Session

/-! ### Reports of steps -/

/-- A step never complains about a row; that is what a run without rows makes of
    its answer. -/
theorem Turn.not_unexpected {e : Engine} {s : Session} {st st' : Statement}
    {handle handle' : Handle} {told : Except Fault Bool} {asked : List Request}
    (turn : Turn e s st handle told asked st' handle') :
    told ≠ .error (.access .unexpectedRow) := by
  have hengine : ∀ x, (.error (.ofEngine x) : Except Fault Bool) ≠
      .error (.access .unexpectedRow) := by
    intro x hc
    unfold Fault.ofEngine at hc
    split at hc
    · cases hc
    · cases hc
  cases turn with
  | completed _ =>
      -- Both are misuses, and only the words are different.
      intro hc
      have hwords : AccessError.completed = AccessError.unexpectedRow :=
        Fault.access.inj (Except.error.inj hc)
      exact absurd hwords (by decide)
  | refused x _ _ => exact hengine x
  | unexecuted x _ _ _ => exact hengine x
  | ended _ _ _ _ _ =>
      intro hc
      cases hc
  | arrived _ _ _ _ _ _ _ =>
      intro hc
      cases hc
  | failed _ x _ _ _ _ _ => exact hengine x

namespace Deed

/-- What a step said to itself can be read off its report: it was a row if the
    report says so, or complains about one. -/
theorem gotRow_of_told (e : Engine) (s : Session) (c : Command) (id : StatementId)
    (stepped : c.stepped? = some id) (told : Except Fault Bool) (handle : Handle)
    (reported : (s.perform e c).1.answer = c.told told handle)
    (expected : told ≠ .error (.access .unexpectedRow)) :
    (⟨s, c⟩ : Deed).gotRow e = true ↔ told = .ok true := by
  unfold gotRow answer
  cases c with
  | step id' =>
      rw [reported]
      rcases told with f | more
      · simp [Command.told, Except.map]
      · simp [Command.told, Except.map]
  -- Here a row is told by the complaint about it, which the step itself never
  -- makes.
  | exec id' =>
      rw [reported]
      rcases told with f | more
      · cases f with
        | access x =>
            simp only [ne_eq, Except.error.injEq, Fault.access.injEq] at expected
            simp [Command.told, expected]
        | _ => simp [Command.told]
      · cases more with
        | true => simp [Command.told]
        | false => simp [Command.told]
  | _ => cases stepped

/-- What a step said to itself can be read off its report: a failure has passed
    through if the report is that failure. -/
theorem passed_of_told (e : Engine) (s : Session) (c : Command) (id : StatementId)
    (stepped : c.stepped? = some id) (told : Except Fault Bool) (handle : Handle)
    (reported : (s.perform e c).1.answer = c.told told handle) :
    (⟨s, c⟩ : Deed).passed e = true ↔ ∃ x, told = .error (.engine x) := by
  unfold passed answer
  cases c with
  | step id' =>
      rw [reported]
      rcases told with f | more
      · cases f with
        | _ => simp [Command.told, Except.map]
      · simp [Command.told, Except.map]
  | exec id' =>
      rw [reported]
      rcases told with f | more
      · cases f with
        | _ => simp [Command.told]
      · cases more with
        | true => simp [Command.told]
        | false => simp [Command.told]
  | _ => cases stepped

end Deed

/-! ### Idle statements -/

/-- A statement that was not stepped since it was made or reset, or has run to
    completion. -/
def Statement.Idle (st : Statement) : Prop := st.started = false ∨ st.done = true

theorem Statement.Rests.idle {x y : Statement} (h : x.Rests y) (hy : y.Idle) : x.Idle := by
  unfold Statement.Idle at hy ⊢
  rw [h.started, h.done] at hy
  exact hy

/-- A step leaves no row with a statement that is idle after it. -/
theorem Turn.idle {e : Engine} {s : Session} {st st' : Statement} {handle handle' : Handle}
    {answer : Except Fault Bool} {asked : List Request}
    (turn : Turn e s st handle answer asked st' handle')
    (before : st.Idle → handle.row = none) (after : st'.Idle) : handle'.row = none := by
  -- After a failure there is no row, or that from before.
  have failed : ∀ (x : EngineError) (h : Handle), h.row = none → (h.failed x).row = none := by
    intro x h hrow
    rcases h.failed_row x with hnone | hsame
    · exact hnone
    · rw [hsame, hrow]
  cases turn with
  | completed _ => exact before after
  | refused x _ _ => exact failed x handle (before after)
  | unexecuted x _ _ _ => exact failed x _ (before after)
  | ended c _ _ _ _ => rfl
  | arrived c row rest undone _ _ _ =>
      rcases after with hstarted | hdone
      · exact Bool.noConfusion hstarted
      · exact absurd (undone.symm.trans hdone) Bool.noConfusion
  | failed c x rest undone _ _ _ =>
      rcases after with hstarted | hdone
      · exact Bool.noConfusion hstarted
      · exact absurd (undone.symm.trans hdone) Bool.noConfusion

namespace Command

/-- No command but one of that name sets a row directly. -/
def setsNoRow : Command → Prop
  | setRow _ _ => False
  | _ => True

theorem setsNoRow_of_keepsCounts (c : Command) (hc : c.keepsCounts) : c.setsNoRow := by
  cases c with
  | setRow h row => exact hc
  | _ => trivial

end Command

/-- A statement that was not stepped, or ran to completion, has no row, wherever
    commands lead that set none. So there is no row at the time of an
    execution. -/
theorem Session.reachable_idle (e : Engine) (s : Session)
    (hs : Reachable e Command.setsNoRow s) (id : StatementId) (st : Statement) (handle : Handle)
    (found : s.statement? id = some (st, handle)) : st.Idle → handle.row = none := by
  refine reachable_statement e _ (fun st handle => st.Idle → handle.row = none) ?_ s hs id st handle
    found
  intro s t id c answer st' handle' _ hc ih passage idle
  cases passage with
  | prepared connection h sql params unmade => rfl
  | queried connection h sql params u unmade turn rests settles closed =>
      exact settles.row_none (turn.idle (fun _ => rfl) (rests.idle idle))
  | beside found unmoved unexecuted rests settles =>
      exact settles.row_none (ih _ _ found (rests.idle idle))
  | rejected found moved closed same reported => exact ih _ _ found idle
  | turned found holding stepped turn past reported => exact turn.idle (ih _ _ found) idle
  | reset params found holding command reported => rfl
  -- A direct execution of the handle leaves the row and the flags of the
  -- statement as they were.
  | executed found command past =>
      have hrow := ih _ _ found idle
      exact hrow
  | rowSet row found command =>
      rw [command] at hc
      exact False.elim hc

end RowScope
