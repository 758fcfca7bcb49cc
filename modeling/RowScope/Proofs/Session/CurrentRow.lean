import RowScope.Proofs.Session.Deeds

/-!
# The Current Row

Where the current row of a statement comes from. It is the row that the last
call on the statement has fetched, and if that call has fetched none then there
should be no row. A failure of the database is followed by that: it takes the
row away. The engine has failures of two other classes, however, and these pass
through a step without anything being taken away, so the row from before stays
current although the engine is beyond it.

Nothing else leaves a row behind. In particular there is none to be left behind
if the execution itself fails, since a statement that is executed has just been
made or reset.

## Main definitions

* `Deed.left`: The row that a call leaves.
* `Session.lastCall`: The last call on a statement in a run.
* `Session.Fresh`: A row is current exactly if the last call has fetched it.

## Theorems

* `Turn.row`: The row after a step.
* `lastCall_concat`: The last call is the last deed, if that is a call.
* `open_unfinalized`: An open statement keeps its handle alive.
* `row_left`: The row after a run is the one that the last call has left.
* `row_fresh`: That is the one it has fetched, unless a failure passed through a
  step that began with a row.
-/

namespace RowScope

/-- The row after a step: the one that it has obtained, or the one from before
    if a failure of the engine has passed through, or none. That there is none
    after a refusal to go on is due to the statement being idle then. -/
theorem Turn.row {e : Engine} {s : Session} {id : StatementId} {st st' : Statement}
    {handle handle' : Handle} {told : Except Fault Bool} {asked : List Request}
    (turn : Turn e s st handle told asked st' handle')
    (found : s.statement? id = some (st, handle)) (idle : st.Idle → handle.row = none) :
    (told = .ok true ∧ ∃ row, s.nextRow? e id = some row ∧ handle'.row = some row) ∨
      (∃ x, told = .error (.engine x)) ∧ handle'.row = handle.row ∨
      told ≠ .ok true ∧ (¬ ∃ x, told = .error (.engine x)) ∧ handle'.row = none := by
  -- The two kinds of failures, whatever became of the cursor.
  have failed : ∀ (x : EngineError) (h : Handle), h.row = handle.row →
      (∃ y, (.error (.ofEngine x) : Except Fault Bool) = .error (.engine y)) ∧
          (h.failed x).row = handle.row ∨
        (.error (.ofEngine x) : Except Fault Bool) ≠ .ok true ∧
          (¬ ∃ y, (.error (.ofEngine x) : Except Fault Bool) = .error (.engine y)) ∧
          (h.failed x).row = none := by
    intro x h hrow
    rcases hx : x.isDatabaseFailure with _ | _
    · refine Or.inl ⟨⟨x, ?_⟩, ?_⟩
      · simp only [Fault.ofEngine, hx, Bool.false_eq_true, if_false]
      · simp only [Handle.failed, hx, Bool.false_eq_true, if_false, hrow]
    · refine Or.inr ⟨?_, ?_, ?_⟩
      · simp only [ne_eq, reduceCtorEq, not_false_eq_true]
      · simp only [Fault.ofEngine, hx, if_true, Except.error.injEq, reduceCtorEq, exists_false,
          not_false_eq_true]
      · simp only [Handle.failed, hx, if_true]
  cases turn with
  | completed done =>
      refine Or.inr (Or.inr ⟨?_, ?_, idle (Or.inr done)⟩)
      · simp only [ne_eq, reduceCtorEq, not_false_eq_true]
      · simp only [Except.error.injEq, reduceCtorEq, exists_false, not_false_eq_true]
  | refused x _ _ => exact Or.inr (failed x handle rfl)
  | unexecuted x _ _ _ => exact Or.inr (failed x _ rfl)
  | ended c _ _ _ _ =>
      refine Or.inr (Or.inr ⟨?_, ?_, rfl⟩)
      · simp only [ne_eq, Except.ok.injEq, Bool.false_eq_true, not_false_eq_true]
      · simp only [reduceCtorEq, exists_false, not_false_eq_true]
  | arrived c row rest _ _ readied pending =>
      refine Or.inl ⟨rfl, row, ?_, rfl⟩
      simp only [Session.nextRow?, found, readied, pending]
  | failed c x rest _ _ _ _ => exact Or.inr (failed x _ rfl)

/-- The row that a call on a statement leaves. -/
def Deed.left (e : Engine) (id : StatementId) (d : Deed) : Option Row :=
  if d.gotRow e then d.before.nextRow? e id
  else if d.passed e then d.before.rowOf id
  else none

/-- A step that has obtained a row has not failed. -/
theorem Deed.gotRow_not_passed (e : Engine) (d : Deed) (hd : d.gotRow e = true) :
    d.passed e = false := by
  unfold gotRow at hd
  unfold passed
  split
  · rename_i x hanswer
    rw [hanswer] at hd
    split at hd
    · rename_i heq
      cases heq
    · rename_i heq
      cases heq
    · exact Bool.noConfusion hd
  · rfl

namespace Session

/-- A call on an open statement leaves the row that it is said to leave, and if
    it got one that is a row. -/
theorem perform_left (e : Engine) (c : Command) (s : Session)
    (hs : Reachable e Command.setsNoRow s) (id : StatementId) (st : Statement) (handle : Handle)
    (found : s.statement? id = some (st, handle)) (holding : st.holding = true)
    (moved : c.moved? = some id) :
    (s.perform e c).2.rowOf id = Deed.left e id ⟨s, c⟩ ∧
      ((⟨s, c⟩ : Deed).gotRow e = true → (s.perform e c).2.rowOf id ≠ none) := by
  by_cases stepped : c.stepped? = some id
  · rcases perform_turn e c s id st handle found holding stepped with
      ⟨told, asked, st', handle', turn, stands, reported⟩
    have hgot := Deed.gotRow_of_told e s c id stepped told handle' reported turn.not_unexpected
    have hpassed := Deed.passed_of_told e s c id stepped told handle' reported
    rw [rowOf_found stands.found]
    unfold Deed.left
    rcases turn.row found (reachable_idle e s hs id st handle found) with
      ⟨htold, row, hnext, hrow⟩ | ⟨htold, hrow⟩ | ⟨hno, hnot, hrow⟩
    · rw [if_pos (hgot.mpr htold)]
      refine ⟨hrow.trans hnext.symm, ?_⟩
      intro _
      rw [hrow]
      exact Option.some_ne_none row
    · -- The failure has passed the row by, so it is that from before.
      have hno : ¬ (⟨s, c⟩ : Deed).gotRow e = true := by
        rcases htold with ⟨x, hx⟩
        rw [hgot, hx]
        simp only [reduceCtorEq, not_false_eq_true]
      rw [if_neg hno, if_pos (hpassed.mpr htold)]
      exact ⟨hrow.trans (rowOf_found found).symm, fun hc => absurd hc hno⟩
    · rw [if_neg (fun hc => hno (hgot.mp hc)), if_neg (fun hc => hnot (hpassed.mp hc))]
      exact ⟨hrow, fun hc => absurd (hgot.mp hc) hno⟩
  · cases c with
    | reset id' params =>
        -- A reset takes the row away and has nothing to report.
        obtain rfl : id' = id := Option.some.inj moved
        rcases perform_reset e s id' st handle found holding params with ⟨stands, hanswer⟩
        have hpassed : (⟨s, .reset id' params⟩ : Deed).passed e = false := by
          simp only [Deed.passed, Deed.answer, hanswer]
        constructor
        · rw [rowOf_found stands.found, Deed.left, hpassed]
          rfl
        · intro hc
          cases hc
    | step id' => exact absurd moved stepped
    | exec id' => exact absurd moved stepped
    | _ => cases moved

/-- The last call on a statement in a run, if there was one. -/
def lastCall (e : Engine) (id : StatementId) (cs : List Command) (s : Session) : Option Deed :=
  ((s.deeds e cs).filter (Deed.calls id)).getLast?

/-- A row is current exactly if it is the row that the last call has fetched. -/
def Fresh (e : Engine) (id : StatementId) (call : Option Deed) (row : Option Row) : Prop :=
  ∀ r, row = some r ↔ ∃ d, call = some d ∧ d.gotRow e = true ∧ d.before.nextRow? e id = some r

theorem lastCall_concat (e : Engine) (id : StatementId) (cs : List Command) (c : Command)
    (s : Session) :
    s.lastCall e id (cs ++ [c]) =
      if (⟨(s.run e cs).2, c⟩ : Deed).calls id then some ⟨(s.run e cs).2, c⟩
      else s.lastCall e id cs := by
  rw [lastCall, deeds_concat, List.filter_append, List.filter_cons, List.filter_nil]
  split
  · rw [List.getLast?_concat]
  · rw [List.append_nil]
    rfl

theorem lastCall_unmade (e : Engine) (id : StatementId) (cs : List Command) (s : Session)
    (unmade : (s.run e cs).2.statements[id]? = none) : s.lastCall e id cs = none := by
  rw [lastCall, deeds_unmade e cs s id unmade]
  rfl

/-- An open statement keeps its handle alive, as long as nobody gives back a
    share that is not his own. -/
theorem open_unfinalized (e : Engine) (s : Session) (hs : Reachable e Command.keepsCounts s)
    (id : StatementId) (st : Statement) (handle : Handle)
    (found : s.statement? id = some (st, handle)) (holding : st.holding = true) :
    handle.finalized = false := by
  rcases (statement?_eq_some_iff s id st handle).mp found with ⟨hst, hh⟩
  have hbacked := reachable_backed e s hs st.handle
  rw [account_of_some s st.handle handle hh] at hbacked
  rcases hfin : handle.finalized with _ | _
  · rfl
  · have hzero := (hbacked.ended hfin).2
    have hpos := countP_pos_of_getElem? (Statement.holds st.handle) s.statements id st hst (by
      simp only [Statement.holds, holding, BEq.rfl, Bool.and_self])
    exact absurd hzero (Nat.ne_of_gt hpos)

/-- The row after a run is the one that the last call has left. Between two
    calls the row stays, since the handle is not finalized in the end and so was
    not on the way. -/
theorem row_left (e : Engine) (path : Text) (config : Config) (here : Path) (cs : List Command)
    (hcs : ∀ c ∈ cs, c.setsNoRow) (id : StatementId) (st : Statement) (handle : Handle)
    (found : ((start path config here).run e cs).2.statement? id = some (st, handle))
    (holding : st.holding = true) (unfinalized : handle.finalized = false) :
    handle.row = ((start path config here).lastCall e id cs).bind (Deed.left e id) ∧
      ∀ d, (start path config here).lastCall e id cs = some d → d.gotRow e = true →
        handle.row ≠ none := by
  -- On the commands of the run, from the last one back to the last call.
  induction cs using List.reverseRecOn generalizing st handle with
  | nil => cases found
  | append_singleton cs c ih =>
      have hbefore : ∀ c' ∈ cs, c'.setsNoRow := fun c' hc' =>
        hcs c' (List.mem_append_left [c] hc')
      have hlast : c.setsNoRow := hcs c (List.mem_append_right cs List.mem_cons_self)
      have hreach := reachable_run e Command.setsNoRow cs _ (.start path config here) hbefore
      have hunmade := lastCall_unmade e id cs (start path config here)
      rw [run_concat] at found
      rw [lastCall_concat]
      generalize ((start path config here).run e cs).2 = s at *
      have passage := perform_passage e c s (reachable_separate e _ s hreach) id st handle found
      -- A deed that is no call on the statement, and one that is.
      have uncalled : c.moved? ≠ some id → (⟨s, c⟩ : Deed).calls id = false := by
        intro hne
        simp only [Deed.calls, Bool.and_eq_false_iff, beq_eq_false_iff_ne, ne_eq]
        exact Or.inl hne
      have called : ∀ x y, s.statement? id = some (x, y) → x.holding = true →
          c.moved? = some id → (⟨s, c⟩ : Deed).calls id = true ∧
            handle.row = Deed.left e id ⟨s, c⟩ ∧
            ((⟨s, c⟩ : Deed).gotRow e = true → handle.row ≠ none) := by
        intro x y hxy hx moved
        have hst := ((statement?_eq_some_iff s id x y).mp hxy).1
        rcases perform_left e c s hreach id x y hxy hx moved with ⟨hrow, hgot⟩
        rw [rowOf_found found] at hrow hgot
        refine ⟨?_, hrow, hgot⟩
        simp only [Deed.calls, moved, hst, BEq.rfl, Option.isSome_some, Bool.and_self]
      cases passage with
      | prepared connection h sql params unmade =>
          -- It was not there to be called, and a new handle has no row.
          have hno : (⟨s, c⟩ : Deed).calls id = false := by
            simp only [Deed.calls, unmade, Option.isSome_none, Bool.and_false]
          rw [hno, hunmade unmade]
          refine ⟨rfl, ?_⟩
          intro d hd
          cases hd
      | queried connection h sql params u unmade turn rests settles closed =>
          rw [closed] at holding
          exact Bool.noConfusion holding
      | @beside x _ y _ hxy unmoved unexecuted rests settles =>
          -- Both the last call and the row are those from before.
          rw [uncalled unmoved]
          rcases settles.eq_of_open unfinalized with ⟨shares, rfl⟩
          exact ih hbefore x y hxy (rests.closed holding) unfinalized
      | rejected hxy moved closed same reported =>
          rw [closed] at holding
          exact Bool.noConfusion holding
      | @turned _ _ x _ y _ hxy hx stepped turn past reported =>
          rcases called x y hxy hx (c.moved_of_stepped id stepped) with ⟨hcalls, hrow, hgot⟩
          rw [hcalls]
          refine ⟨hrow, ?_⟩
          intro d hd
          rw [← Option.some.inj hd]
          exact hgot
      | @reset x y params hxy hx command reported =>
          rcases called x y hxy hx (by rw [command]; rfl) with ⟨hcalls, hrow, hgot⟩
          rw [hcalls]
          refine ⟨hrow, ?_⟩
          intro d hd
          rw [← Option.some.inj hd]
          exact hgot
      | @executed x y hxy command past =>
          have unmoved : c.moved? ≠ some id := by
            rw [command]
            intro hc
            cases hc
          rw [uncalled unmoved]
          exact ih hbefore _ y hxy holding unfinalized
      | rowSet row hxy command =>
          rw [command] at hlast
          exact False.elim hlast

/-- The row that a call has left is fresh, unless it is a row that a failure has
    passed by. -/
theorem fresh_iff (e : Engine) (id : StatementId) (call : Option Deed) (row : Option Row)
    (hrow : row = call.bind (Deed.left e id))
    (hgot : ∀ d, call = some d → d.gotRow e = true → row ≠ none) :
    Fresh e id call row ↔
      ¬ ∃ d, call = some d ∧ d.passed e = true ∧ d.before.rowOf id ≠ none := by
  unfold Fresh
  rcases call with _ | d
  · -- There was no call, and there is no row.
    rw [hrow]
    simp only [Option.bind_none, reduceCtorEq, false_and, exists_false, not_false_eq_true,
      implies_true]
  · simp only [Option.some.injEq, exists_eq_left']
    rw [hrow, Option.bind_some]
    unfold Deed.left
    rcases hd : d.gotRow e with _ | _
    · rcases hp : d.passed e with _ | _
      · simp only [Bool.false_eq_true, if_false, reduceCtorEq, false_and, not_false_eq_true,
          implies_true]
      · simp only [Bool.false_eq_true, if_false, if_true, false_and, iff_false, true_and, ne_eq,
          Decidable.not_not]
        exact Option.eq_none_iff_forall_ne_some.symm
    · simp only [if_true, true_and, d.gotRow_not_passed e hd, Bool.false_eq_true, false_and,
        not_false_eq_true, implies_true]

/-- Which row an open statement has after a run. It is the row that the last
    call on the statement has fetched, and none if that has fetched none, with
    one exception: a failure of the engine that passes through a step leaves the
    row from before.

    The exception is exact. It is one if there was a row before, and then the
    row is not what the last call has obtained. -/
theorem row_fresh (e : Engine) (path : Text) (config : Config) (here : Path) (cs : List Command)
    (hcs : ∀ c ∈ cs, c.setsNoRow) (id : StatementId) (st : Statement) (handle : Handle)
    (found : ((start path config here).run e cs).2.statement? id = some (st, handle))
    (holding : st.holding = true) :
    ((∀ c ∈ cs, c.keepsCounts) → handle.finalized = false) ∧
      (handle.finalized = false →
        handle.row = ((start path config here).lastCall e id cs).bind (Deed.left e id) ∧
        (Fresh e id ((start path config here).lastCall e id cs) handle.row ↔
          ¬ ∃ d, (start path config here).lastCall e id cs = some d ∧ d.passed e = true ∧
            d.before.rowOf id ≠ none)) := by
  constructor
  · intro hkeeps
    have hreach := reachable_run e Command.keepsCounts cs _ (.start path config here) hkeeps
    exact open_unfinalized e _ hreach id st handle found holding
  · intro unfinalized
    rcases row_left e path config here cs hcs id st handle found holding unfinalized with
      ⟨hrow, hgot⟩
    refine ⟨hrow, ?_⟩
    exact fresh_iff e id _ handle.row hrow hgot

end Session

/-- An engine that warns when the second row is fetched. -/
def Engine.warning : Engine where
  connect _ _ := none
  pragma _ _ := none
  script _ _ := (0, none)
  execute _ _ _ := .ok ⟨some [[]], [.ok [.integer 7], .error ⟨.warning, [], none, none⟩], -1, 0⟩

namespace Session

/-- A program that steps beyond the first row. -/
def steppingOn : List Command := [.openDatabase, .prepare (.text []) .empty, .step 0, .step 0]

theorem steppingOn_keepsCounts (c : Command) (hc : c ∈ steppingOn) : c.keepsCounts := by
  simp only [steppingOn, List.mem_cons, List.not_mem_nil, or_false] at hc
  rcases hc with rfl | rfl | rfl | rfl
  all_goals trivial

/-- The warning is all that the last step has obtained, and the first row is
    still current. -/
theorem row_stale :
    (∀ c ∈ steppingOn, c.keepsCounts) ∧
      ∃ st handle, (unopened.run .warning steppingOn).2.statement? 0 = some (st, handle) ∧
        st.holding = true ∧ handle.row = some [.integer 7] ∧
        ¬ Fresh .warning 0 (unopened.lastCall .warning 0 steppingOn) handle.row := by
  refine ⟨steppingOn_keepsCounts, _, _, rfl, rfl, rfl, ?_⟩
  intro hc
  rcases (hc [.integer 7]).mp rfl with ⟨d, hd, hgot, -⟩
  rw [← Option.some.inj hd] at hgot
  cases hgot

/-- The row is the one from before the warning, which is why it is not fresh. -/
theorem row_fresh_steppingOn :
    ∃ st handle, (unopened.run .warning steppingOn).2.statement? 0 = some (st, handle) ∧
      st.holding = true ∧ handle.finalized = false ∧
      handle.row = (unopened.lastCall .warning 0 steppingOn).bind (Deed.left .warning 0) := by
  have hfresh := row_fresh .warning [] .standard ⟨.root, []⟩ steppingOn
    (fun c hc => c.setsNoRow_of_keepsCounts (steppingOn_keepsCounts c hc)) 0 _ _ rfl rfl
  have hopen := hfresh.1 steppingOn_keepsCounts
  exact ⟨_, _, rfl, rfl, hopen, (hfresh.2 hopen).1⟩

end Session

end RowScope
