import RowScope.Proofs.Session.Passage

/-!
# Calls on Cursors

Which commands execute or fetch, and what. Most commands are *quiet*: whatever
they call, it is not on a cursor, apart from cursors that are closed. A step
calls on the cursor of its statement only, an execution if the statement has not
started, and then a fetch, provided that there was no need to execute or the
execution has succeeded. A query makes a statement of its own, steps it once and
closes it, and is quiet beside that step.

Calls count as made also if the engine is not reached, because the cursor or its
connection is closed. So nothing depends on what becomes of a call, except that
a failed execution is not followed by a fetch.

## Main definitions

* `Call.cursor?`: The handle on whose cursor a call executes or fetches.
* `Session.Quietly`: One session came out of another without such a call.
* `Statement.turnCalls`, `Session.begins`: What a step calls, and whether it
  gets to its fetch.
* `Command.queries`, `Command.prepared?`: The commands that make statements, and
  for what SQL.

## Theorems

* `Leads.quietly`: Moves without calls on cursors.
* `step_calls`: What a step of an open statement calls.
* `perform_quietly`: Most commands are quiet.
* `perform_query`: A query is quiet, apart from the one step of its statement.
* `perform_calls`: Who is behind a call on a cursor.
-/

namespace RowScope

/-- The handle on whose cursor a call executes or fetches. -/
def Call.cursor? : Call → Option HandleId
  | execute h _ _ => some h
  | fetch h => some h
  | _ => none

/-- What a step of an open statement calls, by whether it gets to its fetch. -/
def Statement.turnCalls (st : Statement) (begun : Bool) : List Call :=
  if st.done then []
  else (if st.started then [] else [.execute st.handle st.sql st.params]) ++
    if begun then [.fetch st.handle] else []

/-- A step calls on the cursor of its own statement only. -/
theorem Statement.turnCalls_cursor (st : Statement) (begun : Bool) (k : Call)
    (hk : k ∈ st.turnCalls begun) : k.cursor? = some st.handle := by
  unfold turnCalls at hk
  split at hk
  · cases hk
  · -- The execution, and the fetch.
    rcases List.mem_append.mp hk with hk | hk
    · split at hk
      · cases hk
      · rw [List.mem_singleton.mp hk]
        rfl
    · split at hk
      · rw [List.mem_singleton.mp hk]
        rfl
      · cases hk

namespace Command

/-- A command makes a statement for one value, and closes it. -/
def queries : Command → Bool
  | queryFirst _ _ => true
  | tableExists _ => true
  | lastInsertRowid => true
  | _ => false

/-- The SQL and the parameters that a command prepares a statement for. -/
def prepared? : Command → Option (Sql × Params)
  | prepare sql params => some (sql, params)
  | queryFirst sql params => some (sql, params)
  | tableExists name => some (Session.tableQuery, .positional [.text name])
  | lastInsertRowid => some (Session.rowidQuery, .empty)
  | _ => none

end Command

namespace Session

/-- One session came out of another without an execution or a fetch. -/
def Quietly (s t : Session) : Prop :=
  ∃ more, t.calls = s.calls ++ more ∧ ∀ k ∈ more, k.cursor? = none

/-- A step of an undone statement gets to its fetch: the statement has started,
    or starts now. -/
def begins (e : Engine) (s : Session) (st : Statement) (handle : Handle) : Bool :=
  st.started || ((s.refusal? handle).isNone && (e.execute s.past st.sql st.params).isOk)

theorem Quietly.of_same {s t : Session} (h : t.calls = s.calls) : s.Quietly t :=
  ⟨[], by rw [h, List.append_nil], fun _ hk => absurd hk List.not_mem_nil⟩

theorem Quietly.refl (s : Session) : s.Quietly s := .of_same rfl

theorem Quietly.trans {s t u : Session} (h1 : s.Quietly t) (h2 : t.Quietly u) : s.Quietly u := by
  rcases h1 with ⟨first, hfirst, hquiet1⟩
  rcases h2 with ⟨last, hlast, hquiet2⟩
  refine ⟨first ++ last, by rw [hlast, hfirst, List.append_assoc], fun k hk => ?_⟩
  rcases List.mem_append.mp hk with hk | hk
  · exact hquiet1 k hk
  · exact hquiet2 k hk

/-- To give back a share closes a cursor at most, and that is neither an
    execution nor a fetch. -/
theorem release_quietly (h : HandleId) (s : Session) : s.Quietly (s.release h) := by
  rcases hx : s.handles[h]? with _ | x
  · rw [release_missing h s hx]
    exact .refl s
  · rcases release_cases h s x hx with ⟨-, -, hc⟩ | ⟨-, -, -, hc⟩ | ⟨-, -, hc, -⟩
    · exact .of_same hc
    · exact .of_same hc
    · refine ⟨_, hc, fun k hk => ?_⟩
      rw [List.mem_singleton.mp hk]
      rfl

end Session

/-- A move is quiet if it is not a call on a cursor. -/
theorem Move.quietly (a : Touch) (s t : Session) (m : Move a s t)
    (ha : ∀ k, a = .call k → k.cursor? = none) : s.Quietly t := by
  cases m with
  | aside _ _ _ calls => exact .of_same calls
  | call c _ =>
      refine ⟨[c], rfl, fun k hk => ?_⟩
      rw [List.mem_singleton.mp hk]
      exact ha c rfl
  -- Of the others only the end of a handle adds a call, and a finalization is
  -- not a call on a cursor.
  | close id =>
      rcases Session.closeStatement_cases id s with ⟨heq, _⟩ | ⟨st, _, _, heq⟩
      · rw [heq]
        exact .refl s
      · rw [heq]
        exact Session.release_quietly st.handle (s.onStatement id _)
  | release v =>
      rcases Session.releaseView_cases v s with ⟨heq, _⟩ | ⟨view, _, _, heq⟩
      · rw [heq]
        exact .refl s
      · rw [heq]
        exact Session.release_quietly view.handle (s.onView v _)
  | giveBack h => exact Session.release_quietly h s
  | _ => exact .of_same rfl

namespace Session

theorem Leads.quietly {P : Touch → Prop} {s t : Session} (hl : s.Leads P t)
    (hP : ∀ k, P (.call k) → k.cursor? = none) : s.Quietly t := by
  refine hl.preserves (Quietly s) ?_ (.refl s)
  intro a u w ha m hu
  exact hu.trans (m.quietly a u w (fun k hk => hP k (by rw [← hk]; exact ha)))

/-! ### Steps -/

/-- An execution is called for, whatever becomes of it. -/
theorem executeCursor_calls (e : Engine) (h : HandleId) (handle : Handle) (sql : Sql)
    (params : Params) (s : Session) :
    (s.executeCursor e h handle sql params).2.calls = s.calls ++ [.execute h sql params] := by
  unfold executeCursor
  simp only []
  split
  · rfl
  · split
    · rfl
    · rfl

theorem executeCursor_isOk (e : Engine) (h : HandleId) (handle : Handle) (sql : Sql)
    (params : Params) (s : Session) :
    (s.executeCursor e h handle sql params).1.isOk =
      ((s.refusal? handle).isNone && (e.execute s.past sql params).isOk) := by
  rcases hrefusal : s.refusal? handle with _ | x
  · rcases hanswer : e.execute s.past sql params with x | a
    · rw [executeCursor_failed e h handle sql params s hrefusal x hanswer]
      rfl
    · rw [executeCursor_executed e h handle sql params s hrefusal a hanswer]
      rfl
  · rw [executeCursor_refused e h handle sql params s x hrefusal]
    rfl

/-- A fetch is called for, whatever becomes of it. -/
theorem fetchCursor_calls (h : HandleId) (s : Session) :
    (s.fetchCursor h).2.calls = s.calls ++ [.fetch h] := by
  unfold fetchCursor
  simp only []
  split
  · rfl
  · split
    · rfl
    · rfl

theorem stepFailed_calls (h : HandleId) (x : EngineError) (s : Session) :
    (s.stepFailed h x).2.calls = s.calls := by
  unfold stepFailed
  split
  · rfl
  · rfl

theorem arrive_calls (id : StatementId) (h : HandleId) (fetched : Option Row) (s : Session) :
    (Session.arrive id h fetched s).2.calls = s.calls := by
  cases fetched with
  | none => rfl
  | some row => rfl

/-- The first half of a step executes, unless the statement has started, and it
    succeeds if the statement begins. Both are said at once because the second
    half depends on the second of them. -/
theorem begin_calls (e : Engine) (s : Session) (id : StatementId) (st : Statement)
    (handle : Handle) (hh : s.handles[st.handle]? = some handle) :
    (s.begin e id st).2.calls = s.calls ++
        (if st.started then [] else [.execute st.handle st.sql st.params]) ∧
      (s.begin e id st).1.isOk = s.begins e st handle := by
  rcases hstarted : st.started with _ | _
  · have hcalls := executeCursor_calls e st.handle handle st.sql st.params
      (s.noted (.executing st.sql))
    have hok : ((s.noted (.executing st.sql)).executeCursor e st.handle handle st.sql
        st.params).1.isOk = s.begins e st handle := by
      rw [executeCursor_isOk, begins, hstarted, Bool.false_or]
      rfl
    rcases hexec : (s.noted (.executing st.sql)).executeCursor e st.handle handle st.sql
      st.params with ⟨answer, t⟩
    rw [hexec] at hcalls hok
    rw [begin_unstarted e s id st handle hstarted hh answer t hexec]
    -- Whether the statement is marked as started makes no difference to the
    -- calls.
    rcases answer with x | ok
    · exact ⟨hcalls, hok⟩
    · exact ⟨hcalls, hok⟩
  · rw [begin_started e s id st hstarted, begins, hstarted]
    exact ⟨(List.append_nil s.calls).symm, rfl⟩

/-- What a step of an open statement calls: nothing if it is done, otherwise an
    execution if it has not started, and then a fetch if it gets there. -/
theorem step_calls (e : Engine) (s : Session) (id : StatementId) (st : Statement) (handle : Handle)
    (found : s.statement? id = some (st, handle)) (holding : st.holding = true) :
    (s.step e id).2.calls = s.calls ++ st.turnCalls (s.begins e st handle) := by
  rcases (statement?_eq_some_iff s id st handle).mp found with ⟨hst, hh⟩
  unfold Statement.turnCalls
  -- The execution counts as called also if it fails, and so does the fetch:
  -- what fails is what comes after them.
  rcases hdone : st.done with _ | _
  · rcases begin_calls e s id st handle hh with ⟨hcalls, hok⟩
    rcases hbegin : s.begin e id st with ⟨x | ok, t⟩
    · rw [hbegin] at hcalls hok
      rw [step_of_begin_error e hst holding hdone hbegin, stepFailed_calls, hcalls, ← hok]
      exact congrArg (s.calls ++ ·) (List.append_nil _).symm
    · rw [hbegin] at hcalls hok
      have hfetched := fetchCursor_calls st.handle t
      rw [hcalls, List.append_assoc] at hfetched
      rw [← hok]
      rcases hfetch : t.fetchCursor st.handle with ⟨x | fetched, u⟩
      · rw [hfetch] at hfetched
        rw [step_of_fetch_error e hst holding hdone hbegin hfetch, stepFailed_calls]
        exact hfetched
      · rw [hfetch] at hfetched
        rw [step_of_fetch_ok e hst holding hdone hbegin hfetch, arrive_calls]
        exact hfetched
  · rw [step_completed e s id st hst holding hdone]
    exact (List.append_nil s.calls).symm

/-- A command that steps a statement does so, whatever it reports. -/
theorem perform_stepped (e : Engine) (c : Command) (s : Session) (id : StatementId)
    (stepped : c.stepped? = some id) : (s.perform e c).2 = (s.step e id).2 := by
  cases c with
  | step id' =>
      rw [show id' = id from Option.some.inj stepped]
      simp only [perform, plainly_state]
  | exec id' =>
      rw [show id' = id from Option.some.inj stepped]
      simp only [perform, plainly_state, exec_state]
  | _ => cases stepped

/-! ### Quiet commands -/

theorem ofReading_quiet (n : Nat) (id : StatementId) (key : Key) (k : Call)
    (hk : Touch.ofReading n id key (.call k)) : k.cursor? = none :=
  False.elim hk

theorem ofDatabase_quiet (k : Call) (hk : Touch.ofDatabase (.call k)) : k.cursor? = none := by
  cases k with
  | execute h sql params => cases hk
  | fetch h => cases hk
  | _ => rfl

/-- All commands are quiet but the steps, the queries, and the direct
    executions. That can be read off the footprints, except for what is done in
    one move or in none. -/
theorem perform_quietly (e : Engine) (c : Command) (s : Session) (unstepped : c.stepped? = none)
    (unqueried : c.queries = false) (indirect : ∀ h, c ≠ .executeHandle h) :
    s.Quietly (s.perform e c).2 := by
  -- One move that is no call.
  have one : ∀ (a : Touch) (t : Session), (∀ k, a ≠ .call k) → Move a s t → s.Quietly t :=
    fun a t ha m => m.quietly a s t (fun k hk => absurd hk (ha k))
  -- One case for each operation: none of the footprints has a call on a cursor
  -- in it.
  cases c with
  | openDatabase =>
      simp only [perform, plainly_state]
      exact (openDatabase_leads e s).quietly ofDatabase_quiet
  | enter =>
      simp only [perform, plainly_state]
      exact (openDatabase_leads e s).quietly ofDatabase_quiet
  | closeDatabase => exact (closeDatabase_leads s).quietly ofDatabase_quiet
  | script sql =>
      simp only [perform, plainly_state]
      exact (script_leads e sql s).quietly ofDatabase_quiet
  | tableExists name => exact Bool.noConfusion unqueried
  | lastInsertRowid => exact Bool.noConfusion unqueried
  | queryFirst sql params => exact Bool.noConfusion unqueried
  | prepare sql params =>
      simp only [perform, making_state]
      exact (prepare_leads (· = .prepare) rfl sql params s).quietly (fun _ => Touch.noConfusion)
  | prepareHandle sql =>
      simp only [perform, making_state]
      unfold prepareHandle
      split
      · exact .refl s
      · exact .of_same rfl
  | step id => cases unstepped
  | exec id => cases unstepped
  | reset id params =>
      simp only [perform, plainly_state]
      unfold reset
      split
      · exact .refl s
      · split
        · exact .refl s
        · exact .of_same rfl
  | closeStatement id => exact one _ _ (fun _ => Touch.noConfusion) (.close id)
  | getColumn id key =>
      simp only [perform, viewing_state]
      exact (getColumn_leads 0 id key s).quietly (ofReading_quiet 0 id key)
  | peek id key g =>
      simp only [perform, plainly_state]
      exact (peek_leads 0 id key _ s (Nat.zero_le _)).quietly (ofReading_quiet 0 id key)
  | cells id =>
      simp only [perform, plainly_state]
      exact (cells_leads id s).quietly (ofReading_quiet _ id (.index 0))
  | columnIndex id name =>
      simp only [perform, plainly_state]
      exact (columnIndex_leads id name s).quietly (fun _ hk => False.elim hk)
  | isColumnNull id key =>
      simp only [perform, plainly_state]
      exact (isColumnNull_leads id key s).quietly (fun _ hk => False.elim hk)
  | getColumns id shape count =>
      simp only [perform, making_state]
      exact (getColumns_leads id shape count s).quietly (ofReading_quiet _ id (.index 0))
  | releaseView v => exact one _ _ (fun _ => Touch.noConfusion) (.release v)
  | share h =>
      exact (withHandle_leads (· = .share h) h _ _ s (Leads.one _ rfl (.share h))).quietly
        (fun _ => Touch.noConfusion)
  | release h =>
      exact (withHandle_leads (· = .giveBack h) h _ _ s (Leads.one _ rfl (.giveBack h))).quietly
        (fun _ => Touch.noConfusion)
  | setRow h row =>
      exact (withHandle_leads (· = .setRow h) h _ _ s (Leads.one _ rfl (.setRow h row))).quietly
        (fun _ => Touch.noConfusion)
  | executeHandle h => exact absurd rfl (indirect h)
  | viewOf h index =>
      simp only [perform]
      split
      · simp only [viewing_state]
        exact .of_same rfl
      · exact .refl s
  | drop made =>
      cases made with
      | statement id => exact one _ _ (fun _ => Touch.noConfusion) (.close id)
      | view v => exact one _ _ (fun _ => Touch.noConfusion) (.release v)
      | handle h => exact .refl s
      | record vs =>
          exact (releaseViews_leads (fun a => ∀ k, a ≠ .call k) vs
            (fun _ _ _ => Touch.noConfusion) s).quietly (fun k hk => absurd rfl (hk k))
  | query q => exact .refl s

/-! ### Queries -/

end Session

/-- The footprint of what a query does after its step. -/
def Touch.ofFinish : Touch → Prop
  | view _ => True
  | release _ => True
  | close _ => True
  | _ => False

theorem Touch.ofFinish_of_ofReading (n : Nat) (id : StatementId) (i : Int) (a : Touch)
    (ha : Touch.ofReading n id (.index i) a) : a.ofFinish := by
  cases a with
  | places id' =>
      rcases ha with ⟨_, name, hc⟩
      exact Key.noConfusion hc
  | view h => trivial
  | release v => trivial
  | _ => exact False.elim ha

namespace Session

/-- A statement that was closed just now. -/
theorem closeStatement_closed (id : StatementId) (s : Session) (st : Statement)
    (hst : (s.closeStatement id).statements[id]? = some st) : st.holding = false := by
  rw [closeStatement_statements] at hst
  rcases hs : s.statements[id]? with _ | x
  · rw [List.getElem?_modify, hs] at hst
    cases hst
  · rw [getElem?_modify_of_some _ _ id id x hs, if_pos rfl] at hst
    rw [← Option.some.inj hst]

/-- A query steps its statement, and what follows is about views and about
    closing it. The statement is closed in the end, whether the step has failed
    or not. -/
theorem queryFirst_finish (e : Engine) (sql : Sql) (params : Params) (s : Session)
    (connection : ConnectionId) (opened : s.database.connection = some connection) :
    ((s.newStatement connection sql params).2.step e s.statements.length).2.Leads Touch.ofFinish
        (s.queryFirst e sql params).2 ∧
      ∀ st, (s.queryFirst e sql params).2.statements[s.statements.length]? = some st →
        st.holding = false := by
  have hprepare : s.prepare sql params =
      (.ok s.statements.length, (s.newStatement connection sql params).2) := by
    simp only [prepare, opened]
    rfl
  unfold queryFirst
  simp only [hprepare]
  have hclose : ∀ u : Session, u.Leads Touch.ofFinish (u.closeStatement s.statements.length) :=
    fun u => Leads.one (.close _) trivial (.close _)
  rcases (s.newStatement connection sql params).2.step e s.statements.length with ⟨f | more, u⟩
  · exact ⟨hclose u, closeStatement_closed _ u⟩
  · have hget := (getColumn_leads 0 s.statements.length (.index 0) u).mono
      (Touch.ofFinish_of_ofReading 0 s.statements.length 0)
    exact ⟨hget.trans (hclose _), closeStatement_closed _ _⟩

/-- A statement that is closed, or not there, is not opened without being
    prepared. -/
theorem Leads.stays_closed {P : Touch → Prop} {s t : Session} (hl : s.Leads P t)
    (id : StatementId) (hflags : ¬ P (.flags id)) (hprepare : ¬ P .prepare)
    (closed : ∀ st, s.statements[id]? = some st → st.holding = false) (st : Statement)
    (hst : t.statements[id]? = some st) : st.holding = false := by
  rcases hbefore : s.statements[id]? with _ | st1
  · rw [hl.statements_none hprepare id hbefore] at hst
    cases hst
  · rcases hl.statement_rests id hflags st1 hbefore with ⟨st2, hst2, rests⟩
    obtain rfl := Option.some.inj (hst.symm.trans hst2)
    rcases hheld : st.holding with _ | _
    · rfl
    · have hopen := rests.closed hheld
      rw [closed st1 hbefore] at hopen
      exact Bool.noConfusion hopen

/-- A query is refused, or steps the statement that it makes, and has closed it
    in the end. All three commands that query come to this, with SQL and
    parameters of their own. -/
theorem perform_query (e : Engine) (c : Command) (s : Session) (queries : c.queries = true) :
    ∃ sql params, c.prepared? = some (sql, params) ∧
      ((s.perform e c).2 = s ∨
        ∃ connection, ((s.newStatement connection sql params).2.step e s.statements.length).2.Leads
            Touch.ofFinish (s.perform e c).2 ∧
          ∀ st, (s.perform e c).2.statements[s.statements.length]? = some st →
            st.holding = false) := by
  have refused : ∀ sql params, s.database.connection = none →
      s.queryFirst e sql params = (.error (.access .databaseClosed), s) := by
    intro sql params hnone
    simp only [queryFirst, prepare, hnone]
  -- Giving back the view of the value is the only thing that is done after
  -- closing the statement.
  have after : ∀ (sql : Sql) (params : Params) (connection : ConnectionId) (t : Session),
      s.database.connection = some connection →
      (s.queryFirst e sql params).2.Leads Touch.ofFinish t →
      ((s.newStatement connection sql params).2.step e s.statements.length).2.Leads
          Touch.ofFinish t ∧
        ∀ st, t.statements[s.statements.length]? = some st → st.holding = false := by
    intro sql params connection t hopen hl
    rcases queryFirst_finish e sql params s connection hopen with ⟨hfinish, hclosed⟩
    exact ⟨hfinish.trans hl, hl.stays_closed _ False.elim False.elim hclosed⟩
  cases c with
  | queryFirst sql params =>
      refine ⟨sql, params, rfl, ?_⟩
      simp only [perform, viewing_state]
      rcases hopen : s.database.connection with _ | connection
      · rw [refused sql params hopen]
        exact Or.inl rfl
      · exact Or.inr ⟨connection, after sql params connection _ hopen (Leads.refl _ _)⟩
  | tableExists name =>
      refine ⟨tableQuery, .positional [.text name], rfl, ?_⟩
      simp only [perform, plainly_state]
      rcases hopen : s.database.connection with _ | connection
      · rw [tableExists, refused _ _ hopen]
        exact Or.inl rfl
      · exact Or.inr ⟨connection, after _ _ connection _ hopen
          ((tableExists_read e name s).mono (Touch.ofFinish_of_ofReading 0 0 0))⟩
  | lastInsertRowid =>
      refine ⟨rowidQuery, .empty, rfl, ?_⟩
      simp only [perform, plainly_state]
      rcases hopen : s.database.connection with _ | connection
      · rw [lastInsertRowid, refused _ _ hopen]
        exact Or.inl rfl
      · exact Or.inr ⟨connection, after _ _ connection _ hopen
          ((lastInsertRowid_read e s).mono (Touch.ofFinish_of_ofReading 0 0 0))⟩
  | _ => exact Bool.noConfusion queries

/-! ### Who is behind a call -/

/-- A direct execution is one call, or none if there is no such handle. -/
theorem executeHandle_calls (e : Engine) (h : HandleId) (s : Session) :
    (s.executeHandle e h).2.calls = s.calls ∨
      ∃ sql params, (s.executeHandle e h).2.calls = s.calls ++ [.execute h sql params] := by
  unfold executeHandle
  rcases s.handles[h]? with _ | handle
  · exact Or.inl rfl
  · have hcalls := executeCursor_calls e h handle handle.sql .empty s
    refine Or.inr ⟨handle.sql, .empty, ?_⟩
    simp only []
    -- The failure is reported, but the call was made.
    rcases hexec : s.executeCursor e h handle handle.sql .empty with ⟨x | ok, t⟩
    · rw [hexec] at hcalls
      exact hcalls
    · rw [hexec] at hcalls
      exact hcalls

/-- A query calls what its step does, and nothing else on a cursor. -/
theorem perform_query_calls (e : Engine) (c : Command) (s : Session) (sql : Sql) (params : Params)
    (connection : ConnectionId)
    (finish : ((s.newStatement connection sql params).2.step e s.statements.length).2.Leads
      Touch.ofFinish (s.perform e c).2) :
    ∃ more, (s.perform e c).2.calls = s.calls ++
        ((Statement.fresh s.handles.length sql params).turnCalls
          ((s.newStatement connection sql params).2.begins e (.fresh s.handles.length sql params)
            (.fresh connection sql)) ++ more) ∧
      ∀ k ∈ more, k.cursor? = none := by
  have hstep := step_calls e _ _ _ _ (newStatement_found connection sql params s) rfl
  rcases finish.quietly (fun k hk => False.elim hk) with ⟨more, hmore, hquiet⟩
  refine ⟨more, ?_, hquiet⟩
  rw [hmore, hstep, List.append_assoc]
  rfl

/-- A call on the cursor of a handle is made directly, by a step of the
    statement of that handle, or by a query that has made this statement. The
    three ways exclude everybody else: a command that is none of them is quiet,
    and a step or a query of another statement calls on another cursor. -/
theorem perform_calls (e : Engine) (c : Command) (s : Session) (separate : s.Separate)
    (more : List Call) (hmore : (s.perform e c).2.calls = s.calls ++ more) (k : Call)
    (hk : k ∈ more) (h : HandleId) (hcursor : k.cursor? = some h) :
    c = .executeHandle h ∨ ∃ id st, (s.perform e c).2.statements[id]? = some st ∧ st.handle = h ∧
      (c.stepped? = some id ∨ s.statements[id]? = none ∧ c.queries = true) := by
  -- What is called when the calls are known, and when they are quiet.
  have known : ∀ {calls}, (s.perform e c).2.calls = s.calls ++ calls → k ∈ calls := by
    intro calls hcalls
    rw [← List.append_cancel_left (hmore.symm.trans hcalls)]
    exact hk
  have quiet : ¬ s.Quietly (s.perform e c).2 := by
    rintro ⟨calls, hcalls, hnone⟩
    rw [hnone k (known hcalls)] at hcursor
    cases hcursor
  -- Queries, steps and direct executions in turn; the rest is quiet.
  rcases hqueries : c.queries with _ | _
  · rcases hstepped : c.stepped? with _ | id
    · by_cases hdirect : ∃ h', c = .executeHandle h'
      · rcases hdirect with ⟨h', rfl⟩
        refine Or.inl ?_
        rcases executeHandle_calls e h' s with hsame | ⟨sql, params, hcalls⟩
        · refine absurd (.of_same ?_) quiet
          simp only [perform, plainly_state, hsame]
        · have hperform : (s.perform e (.executeHandle h')).2.calls =
              s.calls ++ [.execute h' sql params] := by
            simp only [perform, plainly_state, hcalls]
          rw [List.mem_singleton.mp (known hperform)] at hcursor
          rw [Option.some.inj hcursor]
      · exact absurd (perform_quietly e c s hstepped hqueries (fun h' hc => hdirect ⟨h', hc⟩)) quiet
    · -- The statement is there and open, since nothing is called otherwise.
      rcases hst : s.statements[id]? with _ | st
      · refine absurd (.of_same ?_) quiet
        rw [perform_stepped e c s id hstepped]
        simp only [step, hst]
      · rcases holding : st.holding with _ | _
        · have hsame := (perform_closed e c s id st hst (c.moved_of_stepped id hstepped)
            holding).1
          rw [hsame] at quiet
          exact absurd (.refl s) quiet
        · rcases separate.found s id st hst with ⟨handle, found⟩
          have hcalls := step_calls e s id st handle found holding
          rw [← perform_stepped e c s id hstepped] at hcalls
          have hhandle := st.turnCalls_cursor _ k (known hcalls)
          rw [hcursor, Option.some.injEq] at hhandle
          rcases (perform_leads e c s).statement_kept id st hst with ⟨st', hst', hsame, -⟩
          exact Or.inr ⟨id, st', hst', hsame.trans hhandle.symm, Or.inl rfl⟩
  · rcases perform_query e c s hqueries with ⟨sql, params, -, hsame | ⟨connection, hfinish, -⟩⟩
    · rw [hsame] at quiet
      exact absurd (.refl s) quiet
    · rcases perform_query_calls e c s sql params connection hfinish with ⟨rest, hcalls, hrest⟩
      have hfound := newStatement_found connection sql params s
      rcases step_turn e _ _ _ _ hfound rfl with ⟨_, st, handle, turn, stands⟩
      have hst := ((statement?_eq_some_iff _ _ _ _).mp stands.found).1
      rcases hfinish.statement_kept _ st hst with ⟨st', hst', hsame, -⟩
      have hhandle : st'.handle = s.handles.length := hsame.trans turn.statement_kept.1
      rcases List.mem_append.mp (known hcalls) with hturn | hquiet
      · have heq := Statement.turnCalls_cursor _ _ k hturn
        rw [hcursor, Option.some.injEq] at heq
        exact Or.inr ⟨_, st', hst', hhandle.trans heq.symm,
          Or.inr ⟨List.getElem?_eq_none (Nat.le_refl _), rfl⟩⟩
      · rw [hrest k hquiet] at hcursor
        cases hcursor

end Session

end RowScope
