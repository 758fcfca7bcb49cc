import RowScope.Proofs.Session.Stability
import RowScope.Proofs.Session.Turn

/-!
# Passages

What one command makes of one statement. Most commands are about something else
and leave the statement at rest; a command that moves an open statement makes a
turn of it or takes it back to its beginning, and one that moves a closed
statement is rejected. The cursor and the row of a statement can be used behind
its back, by its handle. And a statement that was not there before was prepared,
either by the program or for a query, which then has closed it already.

These are all cases. They say of the statement and its handle what they are
afterwards, and of the engine what it was asked on their behalf, so an invariant
of statements is proved by looking at the passages and the turns, and no command
has to be looked at again.

## Main definitions

* `Command.stepped?`: The statement that a command steps.
* `Command.told`: How a command reports the answer of its step.
* `Passage`: What a command makes of a statement.

## Theorems

* `Separate.found`, `found_unique`: A statement is there together with one
  handle.
* `perform_unmade`: Only a command that prepares makes a statement.
* `newStatement_found`, `newStatement_next`: Preparing makes the next statement
  and no other.
* `queryFirst_made`: The statement of a query was stepped once and is closed.
* `perform_rests`: A statement that is neither moved nor used directly is at
  rest.
* `perform_closed`, `perform_turn`, `perform_reset`: What becomes of a statement
  that is moved, when it is closed, stepped, and reset.
* `perform_passage`: Every command is a passage for every statement that is
  there afterwards.
-/

namespace RowScope

namespace Command

/-- The statement that a command steps. -/
def stepped? : Command → Option StatementId
  | step id => some id
  | exec id => some id
  | _ => none

/-- A command makes a statement, if the database is open. -/
def prepares : Command → Prop
  | prepare _ _ => True
  | queryFirst _ _ => True
  | tableExists _ => True
  | lastInsertRowid => True
  | _ => False

theorem moved_of_stepped (c : Command) (id : StatementId) (hc : c.stepped? = some id) :
    c.moved? = some id := by
  cases c with
  | step id' => exact hc
  | exec id' => exact hc
  | _ => cases hc

/-- How a command reports the answer of its step: a run without rows has nothing
    but the count of affected rows to report. -/
def told (answer : Except Fault Bool) (handle : Handle) : Command → Except Fault Value
  | exec _ => match answer with
    | .error f => .error f
    | .ok true => .error (.access .unexpectedRow)
    | .ok false => .ok (.integer (max handle.cursor.rowCount 0))
  | _ => answer.map .truth

end Command

/-- What a command that leads from one session to another, with some answer,
    makes of a statement. -/
inductive Passage (e : Engine) (s t : Session) (id : StatementId) (c : Command)
    (answer : Except Fault Value) : Statement → Handle → Prop
  -- The statement was prepared.
  | prepared (connection : ConnectionId) (h : HandleId) (sql : Sql) (params : Params)
      (unmade : s.statements[id]? = none) :
      Passage e s t id c answer (.fresh h sql params) (.fresh connection sql)
  -- The statement was prepared for a query, stepped, and closed.
  | queried (connection : ConnectionId) (h : HandleId) (sql : Sql) (params : Params) (u : Session)
      {told : Except Fault Bool} {asked : List Request} {st st' : Statement}
      {handle handle' : Handle} (unmade : s.statements[id]? = none)
      (turn : Turn e u (.fresh h sql params) (.fresh connection sql) told asked st handle)
      (rests : st.Rests st') (settles : handle.Settles handle') (closed : st'.holding = false) :
      Passage e s t id c answer st' handle'
  -- The command is about something else. A direct execution is, if the cursor
  -- cannot be used.
  | beside {st st' : Statement} {handle handle' : Handle}
      (found : s.statement? id = some (st, handle)) (unmoved : c.moved? ≠ some id)
      (unexecuted : c = .executeHandle st.handle → t.past = s.past)
      (rests : st.Rests st') (settles : handle.Settles handle') :
      Passage e s t id c answer st' handle'
  -- The statement is closed and cannot be moved.
  | rejected {st : Statement} {handle : Handle} (found : s.statement? id = some (st, handle))
      (moved : c.moved? = some id) (closed : st.holding = false) (same : t = s)
      (reported : answer = .error (.access (.closedStatement st.sql))) :
      Passage e s t id c answer st handle
  -- The statement is stepped.
  | turned {told : Except Fault Bool} {asked : List Request} {st st' : Statement}
      {handle handle' : Handle} (found : s.statement? id = some (st, handle))
      (holding : st.holding = true) (stepped : c.stepped? = some id)
      (turn : Turn e s st handle told asked st' handle') (past : t.past = s.past ++ asked)
      (reported : answer = c.told told handle') : Passage e s t id c answer st' handle'
  -- The statement is reset.
  | reset {st : Statement} {handle : Handle} (params : Option Params)
      (found : s.statement? id = some (st, handle)) (holding : st.holding = true)
      (command : c = .reset id params) (reported : answer = .ok .null) :
      Passage e s t id c answer (st.restarted params) { handle with row := none }
  -- The cursor is executed directly.
  | executed {st : Statement} {handle : Handle} (found : s.statement? id = some (st, handle))
      (command : c = .executeHandle st.handle)
      (past : t.past = s.past ++ [.execute handle.sql .empty]) :
      Passage e s t id c answer st
        { handle with cursor := handle.cursor.executed (e.execute s.past handle.sql .empty) }
  -- The row is set directly.
  | rowSet {st : Statement} {handle : Handle} (row : Option Row)
      (found : s.statement? id = some (st, handle)) (command : c = .setRow st.handle row) :
      Passage e s t id c answer st { handle with row := row }

namespace Session

@[simp] theorem plainly_answer {α : Type} (value : α → Value) (o : Outcome α) :
    (plainly value o).1.answer = o.1.map value := by
  rcases o with ⟨f | a, s⟩
  · rfl
  · rfl

theorem found_unique {s : Session} {id : StatementId} {x y : Statement} {hx hy : Handle}
    (found : s.statement? id = some (x, hx)) (found' : s.statement? id = some (y, hy)) :
    x = y ∧ hx = hy := by
  rw [found] at found'
  exact Prod.mk.inj (Option.some.inj found')

/-- Statements stay separate, whatever moves there are. -/
theorem Separate.leads {P : Touch → Prop} {s t : Session} (hs : s.Separate) (hl : s.Leads P t) :
    t.Separate := by
  refine hl.preserves Separate ?_ hs
  intro a u w _ m hu
  exact hu.move a u w m

theorem Separate.found (s : Session) (hs : s.Separate) (id : StatementId) (st : Statement)
    (hst : s.statements[id]? = some st) : ∃ handle, s.statement? id = some (st, handle) := by
  have hlt : st.handle < s.handles.length :=
    hs.2 st.handle (List.mem_map.mpr ⟨st, List.mem_of_getElem? hst, rfl⟩)
  exact ⟨_, (statement?_eq_some_iff s id st _).mpr ⟨hst, List.getElem?_eq_getElem hlt⟩⟩

/-! ### New statements -/

/-- Only a command that prepares makes a statement. No other footprint has the
    making of one in it, and every operation keeps to its footprint. -/
theorem perform_unmade (e : Engine) (c : Command) (s : Session) (hc : ¬ c.prepares)
    (id : StatementId) (hs : s.statements[id]? = none) :
    (s.perform e c).2.statements[id]? = none := by
  -- One move that makes no statement.
  have one : ∀ (a : Touch) (t : Session), a ≠ .prepare → Move a s t → t.statements[id]? = none :=
    fun a t ha m => (Leads.one a ha m).statements_none (P := fun a => a ≠ .prepare)
      (fun hP => hP rfl) id hs
  -- One case for each operation: no footprint but that of a query has a new
  -- statement in it.
  cases c with
  | openDatabase =>
      simp only [perform, plainly_state]
      exact (openDatabase_leads e s).statements_none False.elim id hs
  | enter =>
      simp only [perform, plainly_state]
      exact (openDatabase_leads e s).statements_none False.elim id hs
  | closeDatabase => exact (closeDatabase_leads s).statements_none False.elim id hs
  | script sql =>
      simp only [perform, plainly_state]
      exact (script_leads e sql s).statements_none False.elim id hs
  | tableExists name => exact absurd trivial hc
  | lastInsertRowid => exact absurd trivial hc
  | prepare sql params => exact absurd trivial hc
  | queryFirst sql params => exact absurd trivial hc
  | prepareHandle sql =>
      simp only [perform, making_state]
      unfold prepareHandle
      split
      · exact hs
      · exact hs
  | step id' =>
      simp only [perform, plainly_state]
      exact (step_leads e id' s).statements_none False.elim id hs
  | exec id' =>
      simp only [perform, plainly_state, exec_state]
      exact (step_leads e id' s).statements_none False.elim id hs
  | reset id' params =>
      simp only [perform, plainly_state]
      exact (reset_leads id' params s).statements_none False.elim id hs
  | closeStatement id' => exact one _ _ Touch.noConfusion (.close id')
  | getColumn id' key =>
      simp only [perform, viewing_state]
      exact (getColumn_leads 0 id' key s).statements_none False.elim id hs
  | peek id' key g =>
      simp only [perform, plainly_state]
      exact (peek_leads 0 id' key _ s (Nat.zero_le _)).statements_none False.elim id hs
  | cells id' =>
      simp only [perform, plainly_state]
      exact (cells_leads id' s).statements_none False.elim id hs
  | columnIndex id' name =>
      simp only [perform, plainly_state]
      exact (columnIndex_leads id' name s).statements_none False.elim id hs
  | isColumnNull id' key =>
      simp only [perform, plainly_state]
      exact (isColumnNull_leads id' key s).statements_none False.elim id hs
  | getColumns id' shape count =>
      simp only [perform, making_state]
      exact (getColumns_leads id' shape count s).statements_none False.elim id hs
  | releaseView v => exact one _ _ Touch.noConfusion (.release v)
  | share h =>
      exact (withHandle_leads (fun a => a ≠ .prepare) h _ _ s
        (Leads.one _ Touch.noConfusion (.share h))).statements_none (fun hP => hP rfl) id hs
  | release h =>
      exact (withHandle_leads (fun a => a ≠ .prepare) h _ _ s
        (Leads.one _ Touch.noConfusion (.giveBack h))).statements_none (fun hP => hP rfl) id hs
  | setRow h row =>
      exact (withHandle_leads (fun a => a ≠ .prepare) h _ _ s
        (Leads.one _ Touch.noConfusion (.setRow h row))).statements_none (fun hP => hP rfl) id hs
  | executeHandle h =>
      simp only [perform, plainly_state]
      exact (executeHandle_leads e h s).statements_none False.elim id hs
  | viewOf h index =>
      simp only [perform]
      split
      · simp only [viewing_state]
        exact hs
      · exact hs
  | drop made =>
      cases made with
      | statement id' => exact one _ _ Touch.noConfusion (.close id')
      | view v => exact one _ _ Touch.noConfusion (.release v)
      | handle h => exact hs
      | record vs =>
          exact (releaseViews_leads (fun a => a ≠ .prepare) vs (fun _ _ => Touch.noConfusion)
            s).statements_none (fun hP => hP rfl) id hs
  | query q => exact hs

theorem newStatement_found (connection : ConnectionId) (sql : Sql) (params : Params) (s : Session) :
    (s.newStatement connection sql params).2.statement? s.statements.length =
      some (.fresh s.handles.length sql params, .fresh connection sql) :=
  (statement?_eq_some_iff _ _ _ _).mpr
    ⟨List.getElem?_concat_length, List.getElem?_concat_length⟩

theorem newStatement_next (connection : ConnectionId) (sql : Sql) (params : Params) (s : Session)
    (id : StatementId) (hs : s.statements[id]? = none) (hid : id ≠ s.statements.length) :
    (s.newStatement connection sql params).2.statements[id]? = none := by
  have hlt : s.statements.length < id :=
    Nat.lt_of_le_of_ne (List.getElem?_eq_none_iff.mp hs) (Ne.symm hid)
  refine List.getElem?_eq_none ?_
  rw [newStatement, newHandle, List.length_append, List.length_singleton]
  exact hlt

theorem prepare_refused (sql : Sql) (params : Params) (s t : Session) (f : Fault)
    (h : s.prepare sql params = (.error f, t)) : t = s := by
  unfold prepare at h
  split at h
  · exact (Prod.ext_iff.mp h).2.symm
  · exact absurd h.symm refused_ne_ok

/-- What closing leaves of a statement that was only read before: the same
    flags, a handle that may have ended, and no share. -/
theorem Leads.closed_rests {s t : Session} {n : Nat} {key : Key} (id : StatementId)
    (hl : s.Leads (Touch.ofReading n id key) t) (st : Statement) (handle : Handle)
    (found : s.statement? id = some (st, handle)) (st' : Statement) (handle' : Handle)
    (found' : (t.closeStatement id).statement? id = some (st', handle')) :
    st.Rests st' ∧ handle.Settles handle' ∧ st'.holding = false := by
  rcases hl.rests id st handle found False.elim False.elim False.elim False.elim with
    ⟨st1, handle1, found1, rests1, settles1⟩
  have hclose : t.Leads (fun a => a = .close id) (t.closeStatement id) :=
    Leads.one _ rfl (.close id)
  rcases hclose.rests id st1 handle1 found1 Touch.noConfusion Touch.noConfusion Touch.noConfusion
    Touch.noConfusion with ⟨st2, handle2, found2, rests2, settles2⟩
  rcases found_unique found2 found' with ⟨rfl, rfl⟩
  refine ⟨rests1.trans rests2, settles1.trans settles2, ?_⟩
  -- Whether it was open before or not.
  have hst1 := ((statement?_eq_some_iff t id st1 handle1).mp found1).1
  have hst2 := ((statement?_eq_some_iff _ id st2 handle2).mp found2).1
  rw [closeStatement_statements, getElem?_modify_of_some _ _ id id st1 hst1, if_pos rfl] at hst2
  rw [← Option.some.inj hst2]

/-- The statement of a query was stepped once and is closed. All three ends of a
    query, after a failed step, without a column and with a view, close the
    statement by the same operation and differ in what is read before. -/
theorem queryFirst_made (e : Engine) (sql : Sql) (params : Params) (s : Session)
    (id : StatementId) (hs : s.statements[id]? = none) (st' : Statement) (handle' : Handle)
    (found : (s.queryFirst e sql params).2.statement? id = some (st', handle')) :
    ∃ connection h u told asked st handle,
      Turn e u (.fresh h sql params) (.fresh connection sql) told asked st handle ∧
        st.Rests st' ∧ handle.Settles handle' ∧ st'.holding = false := by
  have hst' := ((statement?_eq_some_iff _ id st' handle').mp found).1
  unfold queryFirst at found hst'
  rcases hprepare : s.prepare sql params with ⟨f | id', t⟩
  · rw [hprepare] at hst'
    rw [prepare_refused sql params s t f hprepare] at hst'
    rw [hs] at hst'
    cases hst'
  · rw [hprepare] at found hst'
    rcases prepare_ok sql params s t id' hprepare with ⟨rfl, c, rfl⟩
    simp only [] at found hst'
    by_cases hid : id = s.statements.length
    · subst hid
      have hnew := newStatement_found c sql params s
      rcases step_turn e _ _ _ _ hnew rfl with ⟨asked, st, handle, turn, stands⟩
      refine ⟨c, _, _, _, asked, st, handle, turn, ?_⟩
      rcases hstep : (s.newStatement c sql params).2.step e s.statements.length with ⟨f | more, u⟩
      · rw [hstep] at found stands
        exact Leads.closed_rests _ (Leads.refl (Touch.ofReading 0 _ (.index 0)) u) st handle
          stands.found st' handle' found
      · rw [hstep] at found stands
        exact Leads.closed_rests _ (getColumn_leads 0 _ (.index 0) u) st handle stands.found st'
          handle' found
    · -- No other statement was made on the way.
      have hnone := (step_leads e s.statements.length _).statements_none False.elim id
        (newStatement_next c sql params s id hs hid)
      have hclose : ∀ u : Session, u.statements[id]? = none →
          (u.closeStatement s.statements.length).statements[id]? = none := by
        intro u hu
        rw [closeStatement_statements, List.getElem?_modify, hu]
        rfl
      rcases hstep : (s.newStatement c sql params).2.step e s.statements.length with ⟨f | more, u⟩
      · rw [hstep] at hst' hnone
        rw [hclose u hnone] at hst'
        cases hst'
      · rw [hstep] at hst' hnone
        have hget := (getColumn_leads 0 s.statements.length (.index 0) u).statements_none
          False.elim id hnone
        simp only [] at hst'
        rw [hclose _ hget] at hst'
        cases hst'

/-- A query whose view is given back at once leaves its statement in the same
    way. Giving back the view may end the handle, but moves neither the
    statement nor its cursor. -/
theorem queryFirst_read (e : Engine) (sql : Sql) (params : Params) (s t : Session)
    (separate : s.Separate)
    (hl : (s.queryFirst e sql params).2.Leads (Touch.ofReading 0 0 (.index 0)) t)
    (id : StatementId) (hs : s.statements[id]? = none) (st' : Statement) (handle' : Handle)
    (found : t.statement? id = some (st', handle')) :
    ∃ connection h u told asked st handle,
      Turn e u (.fresh h sql params) (.fresh connection sql) told asked st handle ∧
        st.Rests st' ∧ handle.Settles handle' ∧ st'.holding = false := by
  have hst' := ((statement?_eq_some_iff t id st' handle').mp found).1
  rcases hst : (s.queryFirst e sql params).2.statements[id]? with _ | st1
  · rw [hl.statements_none False.elim id hst] at hst'
    cases hst'
  · have hafter := separate.leads (queryFirst_leads e sql params s)
    rcases hafter.found _ id st1 hst with ⟨handle1, found1⟩
    rcases queryFirst_made e sql params s id hs st1 handle1 found1 with
      ⟨c, h, u, told, asked, st, handle, turn, rests, settles, closed⟩
    rcases hl.rests id st1 handle1 found1 False.elim False.elim False.elim False.elim with
      ⟨st2, handle2, found2, rests2, settles2⟩
    rcases found_unique found2 found with ⟨rfl, rfl⟩
    refine ⟨c, h, u, told, asked, st, handle, turn, rests.trans rests2, settles.trans settles2, ?_⟩
    -- A closed statement is not opened again.
    rcases hheld : st2.holding with _ | _
    · rfl
    · rw [rests2.closed hheld] at closed
      exact Bool.noConfusion closed

theorem tableExists_read (e : Engine) (name : Text) (s : Session) :
    (s.queryFirst e tableQuery (.positional [.text name])).2.Leads
      (Touch.ofReading 0 0 (.index 0)) (s.tableExists e name).2 := by
  unfold tableExists
  rcases s.queryFirst e tableQuery (.positional [.text name]) with ⟨f | v, t⟩
  · exact Leads.refl _ t
  · exact readOnce_leads _ v (Nat.zero_le v) _ t

theorem lastInsertRowid_read (e : Engine) (s : Session) :
    (s.queryFirst e rowidQuery .empty).2.Leads (Touch.ofReading 0 0 (.index 0))
      (s.lastInsertRowid e).2 := by
  unfold lastInsertRowid
  rcases s.queryFirst e rowidQuery .empty with ⟨f | v, t⟩
  · exact Leads.refl _ t
  · exact readOnce_leads _ v (Nat.zero_le v) _ t

/-! ### Old statements -/

/-- A statement that is neither moved nor used directly is at rest. Its
    footprints are others': whatever moves its handle moves the statement, since
    it has the handle to itself. -/
theorem perform_rests (e : Engine) (c : Command) (s : Session) (hs : s.Separate)
    (id : StatementId) (st : Statement) (handle : Handle)
    (found : s.statement? id = some (st, handle)) (unmoved : c.moved? ≠ some id)
    (unexecuted : c ≠ .executeHandle st.handle) (unset : ∀ row, c ≠ .setRow st.handle row) :
    ∃ st' handle', (s.perform e c).2.statement? id = some (st', handle') ∧ st.Rests st' ∧
      handle.Settles handle' := by
  rcases (statement?_eq_some_iff s id st handle).mp found with ⟨hst, hh⟩
  have hid := (List.getElem?_eq_some_iff.mp hst).1
  have hhandle := (List.getElem?_eq_some_iff.mp hh).1
  -- Whoever moves the handle moves its statement, since no other one has it.
  have hmoves : ¬ c.Moves s st.handle := by
    rintro ⟨id', hc, st2, hst2, -, hsame⟩
    have heq := hs.same s id' id st2 st hst2 hst hsame
    rw [heq] at hc
    exact unmoved hc
  refine (perform_leads e c s).rests id st handle found ?_ ?_ ?_ ?_
  · rintro (hc | hle)
    · exact unmoved hc
    · exact Nat.not_lt.mpr hle hid
  · rintro ((hc | hc) | hle)
    · exact hmoves hc
    · exact unexecuted hc
    · exact Nat.not_lt.mpr hle hhandle
  · rintro (hc | hle)
    · exact hmoves hc
    · exact Nat.not_lt.mpr hle hhandle
  · rintro ⟨row, hc⟩
    exact unset row hc

/-- A closed statement is not moved, but the command rejected, with its SQL in
    the fault. -/
theorem perform_closed (e : Engine) (c : Command) (s : Session) (id : StatementId)
    (st : Statement) (hst : s.statements[id]? = some st) (moved : c.moved? = some id)
    (closed : st.holding = false) :
    (s.perform e c).2 = s ∧
      (s.perform e c).1.answer = .error (.access (.closedStatement st.sql)) := by
  have hstep := step_closed e s id st hst closed
  cases c with
  | step id' =>
      rw [show id' = id from Option.some.inj moved]
      simp only [perform, plainly_state, plainly_answer, hstep, Except.map, and_self]
  | exec id' =>
      rw [show id' = id from Option.some.inj moved]
      simp only [perform, plainly_state, plainly_answer, exec, hstep, Except.map, and_self]
  | reset id' params =>
      rw [show id' = id from Option.some.inj moved]
      have hreset := reset_closed s id st hst closed params
      simp only [perform, plainly_state, plainly_answer, hreset, Except.map, and_self]
  | _ => cases moved

/-- A command that steps an open statement makes a turn of it, and reports what
    the step has answered. -/
theorem perform_turn (e : Engine) (c : Command) (s : Session) (id : StatementId)
    (st : Statement) (handle : Handle) (found : s.statement? id = some (st, handle))
    (holding : st.holding = true) (stepped : c.stepped? = some id) :
    ∃ told asked st' handle', Turn e s st handle told asked st' handle' ∧
      (s.perform e c).2.Stands id st' handle' (s.past ++ asked) s.isConnected ∧
      (s.perform e c).1.answer = c.told told handle' := by
  rcases step_turn e s id st handle found holding with ⟨asked, st', handle', turn, stands⟩
  refine ⟨(s.step e id).1, asked, st', handle', turn, ?_⟩
  cases c with
  | step id' =>
      rw [show id' = id from Option.some.inj stepped]
      simp only [perform, plainly_state, plainly_answer]
      exact ⟨stands, rfl⟩
  | exec id' =>
      rw [show id' = id from Option.some.inj stepped]
      simp only [perform, plainly_state, plainly_answer, exec_state]
      refine ⟨stands, ?_⟩
      -- An `exec` is the same step, and differs only in how it words the
      -- answer.
      rw [exec_answer e s id st' handle' stands.found]
      rcases (s.step e id).1 with f | more
      · rfl
      · cases more with
        | true => rfl
        | false => rfl
  | _ => cases stepped

/-- A reset of an open statement takes it back to its beginning, and asks the
    engine nothing. -/
theorem perform_reset (e : Engine) (s : Session) (id : StatementId) (st : Statement)
    (handle : Handle) (found : s.statement? id = some (st, handle)) (holding : st.holding = true)
    (params : Option Params) :
    (s.perform e (.reset id params)).2.Stands id (st.restarted params) { handle with row := none }
        s.past s.isConnected ∧
      (s.perform e (.reset id params)).1.answer = .ok .null := by
  rcases reset_stands s id st handle found holding params with ⟨t, hreset, stands⟩
  simp only [perform, plainly_state, plainly_answer, hreset]
  exact ⟨stands, rfl⟩

/-- A direct execution is refused, or executes the cursor. It is the same
    execution as in a step, but neither the flags nor the row take notice of
    it. -/
theorem executeHandle_cases (e : Engine) (s : Session) (id : StatementId) (st : Statement)
    (handle : Handle) (found : s.statement? id = some (st, handle)) :
    ∃ handle' past, (s.executeHandle e st.handle).2.Stands id st handle' past s.isConnected ∧
      (handle' = handle ∧ past = s.past ∨
        handle' = { handle with
          cursor := handle.cursor.executed (e.execute s.past handle.sql .empty) } ∧
          past = s.past ++ [.execute handle.sql .empty]) := by
  have hself := stands_self s id st handle found
  have hh := ((statement?_eq_some_iff s id st handle).mp found).2
  have hcalled := hself.called (.execute st.handle handle.sql .empty)
  have hcleared := (hcalled.onHandle (Handle.onCursor Cursor.cleared)).asked
    (.execute handle.sql .empty)
  rcases hrefusal : s.refusal? handle with _ | x
  · rcases hanswer : e.execute s.past handle.sql .empty with x | a
    · have hexec := executeCursor_failed e st.handle handle handle.sql .empty s hrefusal x hanswer
      refine ⟨_, _, ?_, Or.inr ⟨rfl, rfl⟩⟩
      simp only [executeHandle, hh, hexec]
      exact hcleared
    · have hexec := executeCursor_executed e st.handle handle handle.sql .empty s hrefusal a hanswer
      refine ⟨_, _, ?_, Or.inr ⟨rfl, rfl⟩⟩
      simp only [executeHandle, hh, hexec]
      exact (hcleared.onHandle (Handle.onCursor (Cursor.holding · a))).onConnection
        handle.cursor.connection (fun c => { c with changes := c.changes + a.changes })
        (fun _ => rfl)
  · -- The attempt is noted as a call, but the engine does not get to know of
    -- it.
    have hexec := executeCursor_refused e st.handle handle handle.sql .empty s x hrefusal
    refine ⟨handle, s.past, ?_, Or.inl ⟨rfl, rfl⟩⟩
    simp only [executeHandle, hh, hexec]
    exact hcalled

/-! ### All statements -/

/-- A statement that was not there before was prepared, by the program or for a
    query. There are four commands that prepare, three of which are queries and
    leave their statement closed. -/
theorem perform_made (e : Engine) (c : Command) (s : Session) (hs : s.Separate) (id : StatementId)
    (unmade : s.statements[id]? = none) (st' : Statement) (handle' : Handle)
    (found' : (s.perform e c).2.statement? id = some (st', handle')) :
    Passage e s (s.perform e c).2 id c (s.perform e c).1.answer st' handle' := by
  by_cases hc : c.prepares
  · cases c with
    | prepare sql params =>
        simp only [perform, making_state] at found'
        have hst' := ((statement?_eq_some_iff _ id st' handle').mp found').1
        rcases hprepare : s.prepare sql params with ⟨f | id', t⟩
        · -- A refusal makes nothing.
          rw [hprepare] at hst'
          rw [prepare_refused sql params s t f hprepare, unmade] at hst'
          cases hst'
        · rw [hprepare] at found' hst'
          rcases prepare_ok sql params s t id' hprepare with ⟨-, connection, rfl⟩
          by_cases hid : id = s.statements.length
          · subst hid
            have hnew := newStatement_found connection sql params s
            rcases found_unique hnew found' with ⟨rfl, rfl⟩
            exact .prepared connection _ sql params unmade
          · rw [newStatement_next connection sql params s id unmade hid] at hst'
            cases hst'
    | queryFirst sql params =>
        simp only [perform, viewing_state] at found'
        rcases queryFirst_made e sql params s id unmade st' handle' found' with
          ⟨connection, h, u, _, _, _, _, turn, rests, settles, closed⟩
        exact .queried connection h sql params u unmade turn rests settles closed
    | tableExists name =>
        simp only [perform, plainly_state] at found'
        rcases queryFirst_read e _ _ s _ hs (tableExists_read e name s) id unmade st' handle'
          found' with ⟨connection, h, u, _, _, _, _, turn, rests, settles, closed⟩
        exact .queried connection h _ _ u unmade turn rests settles closed
    | lastInsertRowid =>
        simp only [perform, plainly_state] at found'
        rcases queryFirst_read e _ _ s _ hs (lastInsertRowid_read e s) id unmade st' handle'
          found' with ⟨connection, h, u, _, _, _, _, turn, rests, settles, closed⟩
        exact .queried connection h _ _ u unmade turn rests settles closed
    | _ => exact False.elim hc
  · have hst' := ((statement?_eq_some_iff _ id st' handle').mp found').1
    rw [perform_unmade e c s hc id unmade] at hst'
    cases hst'

/-- A statement that is not moved is at rest, unless its handle is used
    directly: its cursor may be executed, and its row set. -/
theorem perform_unmoved (e : Engine) (c : Command) (s : Session) (hs : s.Separate)
    (id : StatementId) (st : Statement) (handle : Handle)
    (found : s.statement? id = some (st, handle)) (unmoved : c.moved? ≠ some id)
    (st' : Statement) (handle' : Handle)
    (found' : (s.perform e c).2.statement? id = some (st', handle')) :
    Passage e s (s.perform e c).2 id c (s.perform e c).1.answer st' handle' := by
  by_cases hexec : c = .executeHandle st.handle
  · subst hexec
    rcases executeHandle_cases e s id st handle found with ⟨x, past, stands, hcases⟩
    have hstate : (s.perform e (.executeHandle st.handle)).2 = (s.executeHandle e st.handle).2 := by
      simp only [perform, plainly_state]
    have hpast := stands.past
    have hafter := stands.found
    rw [← hstate] at hpast hafter
    rcases found_unique found' hafter with ⟨rfl, rfl⟩
    rcases hcases with ⟨rfl, rfl⟩ | ⟨rfl, rfl⟩
    · exact .beside found unmoved (fun _ => hpast) (.refl _) (.refl _)
    · exact .executed found rfl hpast
  · by_cases hset : ∃ row, c = .setRow st.handle row
    · rcases hset with ⟨row, rfl⟩
      have hh := ((statement?_eq_some_iff s id st handle).mp found).2
      have hstate : (s.perform e (.setRow st.handle row)).2 = s.setRow st.handle row := by
        simp only [perform, withHandle, hh, Option.isSome_some, if_true]
      have stands : (s.setRow st.handle row).Stands id st { handle with row := row } s.past
          s.isConnected :=
        (stands_self s id st handle found).onHandle fun h => { h with row := row }
      have hafter := stands.found
      rw [← hstate] at hafter
      rcases found_unique found' hafter with ⟨rfl, rfl⟩
      exact .rowSet row found rfl
    · -- Every other command leaves the statement at rest.
      rcases perform_rests e c s hs id st handle found unmoved hexec
        (fun row hc => hset ⟨row, hc⟩) with ⟨x, y, hxy, rests, settles⟩
      rcases found_unique found' hxy with ⟨rfl, rfl⟩
      exact .beside found unmoved (fun hc => absurd hc hexec) rests settles

/-- Every command is a passage for every statement that is there afterwards. A
    statement was there before or was made; it is moved or not; and if it is
    moved it is open or closed. Whatever is to be shown of all statements and
    all commands can start from here. -/
theorem perform_passage (e : Engine) (c : Command) (s : Session) (hs : s.Separate)
    (id : StatementId) (st' : Statement) (handle' : Handle)
    (found' : (s.perform e c).2.statement? id = some (st', handle')) :
    Passage e s (s.perform e c).2 id c (s.perform e c).1.answer st' handle' := by
  rcases hst : s.statements[id]? with _ | st
  · exact perform_made e c s hs id hst st' handle' found'
  · rcases hs.found s id st hst with ⟨handle, found⟩
    by_cases moved : c.moved? = some id
    · rcases holding : st.holding with _ | _
      · rcases perform_closed e c s id st hst moved holding with ⟨hsame, hanswer⟩
        have hafter := found
        rw [← hsame] at hafter
        rcases found_unique found' hafter with ⟨rfl, rfl⟩
        exact .rejected found moved holding hsame hanswer
      · by_cases stepped : c.stepped? = some id
        · rcases perform_turn e c s id st handle found holding stepped with
            ⟨told, asked, st1, handle1, turn, stands, hanswer⟩
          rcases found_unique found' stands.found with ⟨rfl, rfl⟩
          exact .turned found holding stepped turn stands.past hanswer
        · -- What moves a statement without stepping it is a reset.
          cases c with
          | reset id' params =>
              obtain rfl : id' = id := Option.some.inj moved
              rcases perform_reset e s id' st handle found holding params with ⟨stands, hanswer⟩
              rcases found_unique found' stands.found with ⟨rfl, rfl⟩
              exact .reset params found holding rfl hanswer
          | step id' => exact absurd moved stepped
          | exec id' => exact absurd moved stepped
          | _ => cases moved
    · exact perform_unmoved e c s hs id st handle found moved st' handle' found'

end Session

end RowScope
