import RowScope.Proofs.Session.Footprint
import RowScope.Proofs.Session.Rest

/-!
# Turns

What a step makes of an open statement and its handle, said once and completely.
There are three ways for a step to end without a fetch, since the statement may
be complete already, the cursor may be refused, and the execution may fail; and
there are three outcomes of a fetch, which are the end of the result, a row, and
a failure. That makes six kinds of *turns*, and whoever wants to know what steps
do has to look at these and not at the program.

The fetch is on the cursor that is *readied* for it. For a statement that has
started this is its cursor as it is; for one that has not, it is the cursor with
the result of the execution that comes first. So the rows that a statement is
about to deliver can be read off a session at any time, even if the engine was
not asked yet.

## Main definitions

* `Statement.fresh`, `Statement.restarted`: A statement that was made, or reset,
  and not stepped.
* `Statement.requests`: What a step asks of the engine.
* `Session.readied`: The cursor that is fetched from.
* `Handle.failed`: A handle after a failure of the engine.
* `Turn`: One step of an open statement.
* `Statement.turned`: The same as a function.
* `Session.Stands`: A statement with its handle, and what a step depends on
  beside them.

## Theorems

* `Turn.statement_kept`, `Turn.handle_kept`: What a step does not change.
* `Turn.eq_turned`: There is one turn, and it depends on nothing else.
* `Handle.failed_row`: A failure brings no row.
* `begin_cases`, `fetch_turn`: The two halves of a step.
* `step_turn`: A step of an open statement is a turn.
* `step_completed`, `step_closed`: A step that is refused changes nothing.
* `exec_answer`: What a run without rows makes of the answer of its step.
* `reset_stands`, `reset_closed`: A reset of an open statement, and of a closed
  one.
-/

namespace RowScope

namespace Statement

/-- A statement that was just made. -/
def fresh (h : HandleId) (sql : Sql) (params : Params) : Statement :=
  ⟨h, sql, params, false, false, true, none⟩

/-- A statement that was taken back to its beginning, possibly with other
    parameters. -/
def restarted (params : Option Params) (st : Statement) : Statement :=
  { st with started := false, done := false, params := params.getD st.params }

/-- What a step of the statement asks of the engine: its execution, if that has
    not been. -/
def requests (st : Statement) : List Request :=
  if st.started then [] else [.execute st.sql st.params]

end Statement

/-- A cursor after an execution that the engine was asked for. -/
def Cursor.executed (c : Cursor) : Except EngineError Answer → Cursor
  | .ok a => c.cleared.holding a
  | .error _ => c.cleared

/-- A handle after a failure of the engine: a failure of the database takes the
    row away, anything else leaves it. -/
def Handle.failed (x : EngineError) (h : Handle) : Handle :=
  if x.isDatabaseFailure then { h with row := none } else h

/-- The cursor that the next fetch of a statement is on. -/
def Session.readied (e : Engine) (s : Session) (st : Statement) (handle : Handle) :
    Except EngineError Cursor :=
  if st.started then .ok handle.cursor
  else (e.execute s.past st.sql st.params).map handle.cursor.cleared.holding

/-- One step of an open statement: its answer, what it asks of the engine, and
    what becomes of the statement and its handle. -/
inductive Turn (e : Engine) (s : Session) (st : Statement) (handle : Handle) :
    Except Fault Bool → List Request → Statement → Handle → Prop
  -- The statement ran to completion before.
  | completed (done : st.done = true) :
      Turn e s st handle (.error (.access .completed)) [] st handle
  -- The cursor cannot be used.
  | refused (x : EngineError) (undone : st.done = false) (refusal : s.refusal? handle = some x) :
      Turn e s st handle (.error (.ofEngine x)) [] st (handle.failed x)
  -- The execution fails.
  | unexecuted (x : EngineError) (undone : st.done = false) (usable : s.refusal? handle = none)
      (readied : s.readied e st handle = .error x) :
      Turn e s st handle (.error (.ofEngine x)) st.requests st
        (({ handle with cursor := handle.cursor.cleared } : Handle).failed x)
  -- There is no row left.
  | ended (c : Cursor) (undone : st.done = false) (usable : s.refusal? handle = none)
      (readied : s.readied e st handle = .ok c) (pending : c.pending = []) :
      Turn e s st handle (.ok false) st.requests { st with started := true, done := true }
        { handle with cursor := c, row := none }
  -- A row comes.
  | arrived (c : Cursor) (row : Row) (rest : List (Except EngineError Row))
      (undone : st.done = false) (usable : s.refusal? handle = none)
      (readied : s.readied e st handle = .ok c) (pending : c.pending = .ok row :: rest) :
      Turn e s st handle (.ok true) st.requests { st with started := true }
        { handle with cursor := { c with pending := rest }, row := some row }
  -- The fetch fails, and whatever was behind that is lost.
  | failed (c : Cursor) (x : EngineError) (rest : List (Except EngineError Row))
      (undone : st.done = false) (usable : s.refusal? handle = none)
      (readied : s.readied e st handle = .ok c) (pending : c.pending = .error x :: rest) :
      Turn e s st handle (.error (.ofEngine x)) st.requests { st with started := true }
        (({ handle with cursor := { c with pending := [] } } : Handle).failed x)

/-- A step changes neither the handle of a statement, nor what it executes, nor
    its share. -/
theorem Turn.statement_kept {e : Engine} {s : Session} {st st' : Statement}
    {handle handle' : Handle} {answer : Except Fault Bool} {asked : List Request}
    (turn : Turn e s st handle answer asked st' handle') :
    st'.handle = st.handle ∧ st'.sql = st.sql ∧ st'.params = st.params ∧
      st'.holding = st.holding := by
  cases turn with
  | _ => exact ⟨rfl, rfl, rfl, rfl⟩

namespace Handle

theorem failed_finalized (x : EngineError) (h : Handle) :
    (h.failed x).finalized = h.finalized := by
  unfold failed
  split
  · rfl
  · rfl

theorem failed_shares (x : EngineError) (h : Handle) : (h.failed x).shares = h.shares := by
  unfold failed
  split
  · rfl
  · rfl

@[simp] theorem failed_cursor (x : EngineError) (h : Handle) : (h.failed x).cursor = h.cursor := by
  unfold failed
  split
  · rfl
  · rfl

theorem failed_row (x : EngineError) (h : Handle) :
    (h.failed x).row = none ∨ (h.failed x).row = h.row := by
  unfold failed
  split
  · exact Or.inl rfl
  · exact Or.inr rfl

end Handle

/-- A cursor keeps its connection, and whether it is closed, when it is
    readied. -/
theorem Session.readied_cursor {e : Engine} {s : Session} {st : Statement} {handle : Handle}
    {c : Cursor} (h : s.readied e st handle = .ok c) :
    c.connection = handle.cursor.connection ∧ c.closed = handle.cursor.closed := by
  unfold Session.readied at h
  split at h
  · rw [Except.ok.injEq] at h
    rw [← h]
    exact ⟨rfl, rfl⟩
  · rcases ha : e.execute s.past st.sql st.params with x | a
    · rw [ha] at h
      cases h
    · rw [ha] at h
      rw [← Except.ok.inj h]
      exact ⟨rfl, rfl⟩

/-- A step does not finalize a handle, and it neither moves its cursor to
    another connection nor closes it. -/
theorem Turn.handle_kept {e : Engine} {s : Session} {st st' : Statement} {handle handle' : Handle}
    {answer : Except Fault Bool} {asked : List Request}
    (turn : Turn e s st handle answer asked st' handle') :
    handle'.finalized = handle.finalized ∧
      handle'.cursor.connection = handle.cursor.connection ∧
      handle'.cursor.closed = handle.cursor.closed := by
  cases turn with
  | completed _ => exact ⟨rfl, rfl, rfl⟩
  | refused x _ _ =>
      -- A failure clears the row at most, and an execution changes only the
      -- results of the cursor.
      rw [Handle.failed_cursor]
      exact ⟨Handle.failed_finalized x _, rfl, rfl⟩
  | unexecuted x _ _ _ =>
      rw [Handle.failed_cursor]
      exact ⟨Handle.failed_finalized x _, rfl, rfl⟩
  | ended c _ _ readied _ => exact ⟨rfl, Session.readied_cursor readied⟩
  | arrived c _ _ _ _ readied _ =>
      have hcursor := Session.readied_cursor readied
      exact ⟨rfl, hcursor⟩
  | failed c x _ _ _ readied _ =>
      have hcursor := Session.readied_cursor readied
      rw [Handle.failed_cursor]
      exact ⟨Handle.failed_finalized x _, hcursor⟩

/-- So a step leaves it as it is whether the cursor can be used. -/
theorem Turn.refusal_kept {e : Engine} {s : Session} {st st' : Statement} {handle handle' : Handle}
    {answer : Except Fault Bool} {asked : List Request}
    (turn : Turn e s st handle answer asked st' handle') (connected : ConnectionId → Bool) :
    handle'.cursor.refusal? (connected handle'.cursor.connection) =
      handle.cursor.refusal? (connected handle.cursor.connection) := by
  rcases turn.handle_kept with ⟨-, hconnection, hclosed⟩
  rw [Cursor.refusal?, Cursor.refusal?, hconnection, hclosed]

/-- What a step makes of an open statement and its handle, given why the cursor
    is refused and what it is when it is readied. -/
def Statement.turned (st : Statement) (handle : Handle) (refusal : Option EngineError)
    (readied : Except EngineError Cursor) :
    Except Fault Bool × List Request × Statement × Handle :=
  if st.done then (.error (.access .completed), [], st, handle)
  else match refusal, readied with
    | some x, _ => (.error (.ofEngine x), [], st, handle.failed x)
    | none, .error x => (.error (.ofEngine x), st.requests, st,
        ({ handle with cursor := handle.cursor.cleared } : Handle).failed x)
    | none, .ok c => match c.pending with
      | [] => (.ok false, st.requests, { st with started := true, done := true },
          { handle with cursor := c, row := none })
      | .ok row :: rest => (.ok true, st.requests, { st with started := true },
          { handle with cursor := { c with pending := rest }, row := some row })
      | .error x :: _ => (.error (.ofEngine x), st.requests, { st with started := true },
          ({ handle with cursor := { c with pending := [] } } : Handle).failed x)

/-- There is one turn, and it depends on nothing but the statement, the handle,
    why the cursor is refused, and what it is when it is readied. Two sessions
    that agree on these make the same of a step, which is what comparisons of
    sessions use. -/
theorem Turn.eq_turned {e : Engine} {s : Session} {st st' : Statement} {handle handle' : Handle}
    {answer : Except Fault Bool} {asked : List Request}
    (turn : Turn e s st handle answer asked st' handle') :
    st.turned handle (s.refusal? handle) (s.readied e st handle) =
      (answer, asked, st', handle') := by
  unfold Statement.turned
  -- The guards of a turn are the conditions that decide the function, in the
  -- same order.
  cases turn with
  | completed done => simp only [done, if_true]
  | refused x undone refusal =>
      simp only [undone, Bool.false_eq_true, if_false, refusal]
  | unexecuted x undone usable readied =>
      simp only [undone, Bool.false_eq_true, if_false, usable, readied]
  | ended c undone usable readied pending =>
      simp only [undone, Bool.false_eq_true, if_false, usable, readied, pending]
  | arrived c row rest undone usable readied pending =>
      simp only [undone, Bool.false_eq_true, if_false, usable, readied, pending]
  | failed c x rest undone usable readied pending =>
      simp only [undone, Bool.false_eq_true, if_false, usable, readied, pending]

namespace Session

/-- A statement with its handle, in a session in which so much was asked and
    these connections are open. -/
structure Stands (s : Session) (id : StatementId) (st : Statement) (handle : Handle)
    (past : List Request) (connected : ConnectionId → Bool) : Prop where
  found : s.statement? id = some (st, handle)
  past : s.past = past
  connected : s.isConnected = connected

section

variable {s : Session} {id : StatementId} {st : Statement} {handle : Handle} {past : List Request}
  {connected : ConnectionId → Bool}

theorem Stands.noted (h : s.Stands id st handle past connected) (d : Diagnostic) :
    (s.noted d).Stands id st handle past connected :=
  ⟨h.found, h.past, h.connected⟩

/-- A call is only counted; what the engine is asked is another thing. -/
theorem Stands.called (h : s.Stands id st handle past connected) (c : Call) :
    (s.called c).Stands id st handle past connected :=
  ⟨h.found, h.past, h.connected⟩

theorem Stands.asked (h : s.Stands id st handle past connected) (r : Request) :
    (s.asked r).Stands id st handle (past ++ [r]) connected :=
  ⟨h.found, by rw [Session.asked, h.past], h.connected⟩

theorem Stands.onHandle (h : s.Stands id st handle past connected) (f : Handle → Handle) :
    (s.onHandle st.handle f).Stands id st (f handle) past connected := by
  rcases (statement?_eq_some_iff s id st handle).mp h.found with ⟨hst, hh⟩
  have hmodify := getElem?_modify_of_some s.handles f st.handle st.handle handle hh
  rw [if_pos rfl] at hmodify
  exact ⟨(statement?_eq_some_iff _ id st (f handle)).mpr ⟨hst, hmodify⟩, h.past, h.connected⟩

theorem Stands.onStatement (h : s.Stands id st handle past connected) (f : Statement → Statement)
    (kept : (f st).handle = st.handle) :
    (s.onStatement id f).Stands id (f st) handle past connected := by
  rcases (statement?_eq_some_iff s id st handle).mp h.found with ⟨hst, hh⟩
  have hmodify := getElem?_modify_of_some s.statements f id id st hst
  rw [if_pos rfl] at hmodify
  refine ⟨(statement?_eq_some_iff _ id (f st) handle).mpr ⟨hmodify, ?_⟩, h.past, h.connected⟩
  rw [kept]
  exact hh

/-- A change of a connection, as long as it neither opens nor closes it. -/
theorem Stands.onConnection (h : s.Stands id st handle past connected) (c : ConnectionId)
    (f : Connection → Connection) (kept : ∀ x, (f x).isOpen = x.isOpen) :
    (s.onConnection c f).Stands id st handle past connected := by
  refine ⟨h.found, h.past, ?_⟩
  rw [← h.connected]
  funext k
  simp only [isConnected, Session.onConnection]
  rcases hk : s.connections[k]? with _ | x
  · rw [List.getElem?_modify, hk]
    rfl
  · rw [getElem?_modify_of_some s.connections f c k x hk]
    by_cases heq : c = k
    · rw [if_pos heq, Option.any_some, Option.any_some, kept]
    · rw [if_neg heq]

theorem Stands.refusal (h : s.Stands id st handle past connected) :
    s.refusal? handle = handle.cursor.refusal? (connected handle.cursor.connection) := by
  rw [refusal?, h.connected]

end

theorem stands_self (s : Session) (id : StatementId) (st : Statement) (handle : Handle)
    (found : s.statement? id = some (st, handle)) : s.Stands id st handle s.past s.isConnected :=
  ⟨found, rfl, rfl⟩

/-! ### Execution -/

theorem executeCursor_refused (e : Engine) (h : HandleId) (handle : Handle) (sql : Sql)
    (params : Params) (s : Session) (x : EngineError) (hx : s.refusal? handle = some x) :
    s.executeCursor e h handle sql params = (.error x, s.called (.execute h sql params)) := by
  have hcalled : (s.called (.execute h sql params)).refusal? handle = some x := hx
  simp only [executeCursor, hcalled]

theorem executeCursor_failed (e : Engine) (h : HandleId) (handle : Handle) (sql : Sql)
    (params : Params) (s : Session) (hu : s.refusal? handle = none) (x : EngineError)
    (hx : e.execute s.past sql params = .error x) :
    s.executeCursor e h handle sql params =
      (.error x, ((s.called (.execute h sql params)).onHandle h
        (Handle.onCursor Cursor.cleared)).asked (.execute sql params)) := by
  have hcalled : (s.called (.execute h sql params)).refusal? handle = none := hu
  have hanswer : e.execute ((s.called (.execute h sql params)).onHandle h
      (Handle.onCursor Cursor.cleared)).past sql params = .error x := hx
  simp only [executeCursor, hcalled, hanswer]

/-- An execution gives the cursor the result that the engine has answered, and
    the connection the changes. -/
theorem executeCursor_executed (e : Engine) (h : HandleId) (handle : Handle) (sql : Sql)
    (params : Params) (s : Session) (hu : s.refusal? handle = none) (a : Answer)
    (ha : e.execute s.past sql params = .ok a) :
    s.executeCursor e h handle sql params =
      (.ok (), ((((s.called (.execute h sql params)).onHandle h
        (Handle.onCursor Cursor.cleared)).asked (.execute sql params)).onHandle h
          (Handle.onCursor (Cursor.holding · a))).onConnection handle.cursor.connection
            fun c => { c with changes := c.changes + a.changes }) := by
  have hcalled : (s.called (.execute h sql params)).refusal? handle = none := hu
  have hanswer : e.execute ((s.called (.execute h sql params)).onHandle h
      (Handle.onCursor Cursor.cleared)).past sql params = .ok a := ha
  simp only [executeCursor, hcalled, hanswer]

theorem begin_started (e : Engine) (s : Session) (id : StatementId) (st : Statement)
    (hstarted : st.started = true) : s.begin e id st = (.ok (), s) := by
  simp only [begin, hstarted, if_true]

theorem begin_unstarted (e : Engine) (s : Session) (id : StatementId) (st : Statement)
    (handle : Handle) (hstarted : st.started = false) (hh : s.handles[st.handle]? = some handle)
    (answer : Except EngineError Unit) (t : Session)
    (hexec : (s.noted (.executing st.sql)).executeCursor e st.handle handle st.sql st.params =
      (answer, t)) :
    s.begin e id st = match answer with
      | .error x => (.error x, t)
      | .ok () => (.ok (), t.onStatement id fun st => { st with started := true }) := by
  simp only [begin, hstarted, Bool.false_eq_true, if_false, hh, hexec]
  cases answer with
  | error x => rfl
  | ok _ => rfl

/-- The first half of a step on a cursor that can be used: the execution fails,
    or the cursor is readied and the statement has started. -/
theorem begin_cases (e : Engine) (s : Session) (id : StatementId) (st : Statement)
    (handle : Handle) (found : s.statement? id = some (st, handle))
    (usable : s.refusal? handle = none) :
    (∃ x t, s.begin e id st = (.error x, t) ∧ s.readied e st handle = .error x ∧
        t.Stands id st { handle with cursor := handle.cursor.cleared } (s.past ++ st.requests)
          s.isConnected) ∨
      ∃ c t, s.begin e id st = (.ok (), t) ∧ s.readied e st handle = .ok c ∧
        t.Stands id { st with started := true } { handle with cursor := c }
          (s.past ++ st.requests) s.isConnected := by
  have hself := stands_self s id st handle found
  have hh := ((statement?_eq_some_iff s id st handle).mp found).2
  rcases hstarted : st.started with _ | _
  · have hrequests : st.requests = [.execute st.sql st.params] := by
      rw [Statement.requests, hstarted]
      rfl
    have hcalled := (hself.noted (.executing st.sql)).called
      (.execute st.handle st.sql st.params)
    have hcleared := (hcalled.onHandle (Handle.onCursor Cursor.cleared)).asked
      (.execute st.sql st.params)
    rw [hrequests]
    rcases hanswer : e.execute s.past st.sql st.params with x | a
    · -- The failed execution has forgotten the last result all the same.
      have hexec := executeCursor_failed e st.handle handle st.sql st.params
        (s.noted (.executing st.sql)) usable x hanswer
      refine Or.inl ⟨x, _, begin_unstarted e s id st handle hstarted hh _ _ hexec, ?_, hcleared⟩
      simp only [readied, hstarted, Bool.false_eq_true, if_false, hanswer, Except.map]
    · have hexec := executeCursor_executed e st.handle handle st.sql st.params
        (s.noted (.executing st.sql)) usable a hanswer
      have hheld := (hcleared.onHandle (Handle.onCursor (Cursor.holding · a))).onConnection
        handle.cursor.connection (fun c => { c with changes := c.changes + a.changes })
        (fun _ => rfl)
      refine Or.inr ⟨handle.cursor.cleared.holding a, _,
        begin_unstarted e s id st handle hstarted hh _ _ hexec, ?_,
        hheld.onStatement (fun st => { st with started := true }) rfl⟩
      simp only [readied, hstarted, Bool.false_eq_true, if_false, hanswer, Except.map]
  · -- A statement that has started goes on where it is.
    have hsame : ({ st with started := true } : Statement) = st := by
      rw [← hstarted]
    have hrequests : st.requests = [] := by
      rw [Statement.requests, hstarted]
      rfl
    refine Or.inr ⟨handle.cursor, s, begin_started e s id st hstarted, ?_, ?_⟩
    · simp only [readied, hstarted, if_true]
    · rw [hrequests, List.append_nil, hsame]
      exact hself

/-! ### Fetching -/

section

variable {s : Session} {id : StatementId} {st : Statement} {handle : Handle} {past : List Request}
  {connected : ConnectionId → Bool}

theorem fetchCursor_refused (hs : s.Stands id st handle past connected) (x : EngineError)
    (hx : s.refusal? handle = some x) :
    s.fetchCursor st.handle = (.error x, s.called (.fetch st.handle)) := by
  have hh : (s.called (.fetch st.handle)).handles[st.handle]? = some handle :=
    ((statement?_eq_some_iff s id st handle).mp hs.found).2
  have hcalled : (s.called (.fetch st.handle)).refusal? handle = some x := hx
  simp only [fetchCursor, hh, hcalled]

theorem fetchCursor_next (hs : s.Stands id st handle past connected)
    (usable : s.refusal? handle = none) (fetched : Except EngineError (Option Row)) (c : Cursor)
    (hnext : handle.cursor.next = (fetched, c)) :
    ∃ t, s.fetchCursor st.handle = (fetched, t) ∧
      t.Stands id st { handle with cursor := c } past connected := by
  have hh : (s.called (.fetch st.handle)).handles[st.handle]? = some handle :=
    ((statement?_eq_some_iff s id st handle).mp hs.found).2
  have hcalled : (s.called (.fetch st.handle)).refusal? handle = none := usable
  refine ⟨_, ?_, (hs.called (.fetch st.handle)).onHandle (Handle.onCursor fun _ => c)⟩
  simp only [fetchCursor, hh, hcalled, hnext]

theorem stepFailed_stands (hs : s.Stands id st handle past connected) (x : EngineError) :
    (s.stepFailed st.handle x).2.Stands id st (handle.failed x) past connected := by
  unfold stepFailed Handle.failed
  by_cases hx : x.isDatabaseFailure = true
  · rw [if_pos hx, if_pos hx]
    exact hs.onHandle _
  · rw [if_neg hx, if_neg hx]
    exact hs

end

/-! ### Stepping -/

theorem step_completed (e : Engine) (s : Session) (id : StatementId) (st : Statement)
    (hst : s.statements[id]? = some st) (holding : st.holding = true) (done : st.done = true) :
    s.step e id = (.error (.access .completed), s) := by
  simp only [step, hst, holding, done, Bool.not_true, Bool.false_eq_true, if_false, if_true]

theorem step_closed (e : Engine) (s : Session) (id : StatementId) (st : Statement)
    (hst : s.statements[id]? = some st) (closed : st.holding = false) :
    s.step e id = (.error (.access (.closedStatement st.sql)), s) := by
  simp only [step, hst, closed, Bool.not_false, if_true]

section

variable (e : Engine) {s : Session} {id : StatementId} {st : Statement}
  (hst : s.statements[id]? = some st) (holding : st.holding = true) (undone : st.done = false)

include hst holding undone

theorem step_of_begin_error {x : EngineError} {t : Session}
    (hbegin : s.begin e id st = (.error x, t)) : s.step e id = t.stepFailed st.handle x := by
  simp only [step, hst, holding, undone, Bool.not_true, Bool.false_eq_true, if_false, hbegin]

theorem step_of_fetch_error {x : EngineError} {t u : Session}
    (hbegin : s.begin e id st = (.ok (), t)) (hfetch : t.fetchCursor st.handle = (.error x, u)) :
    s.step e id = u.stepFailed st.handle x := by
  simp only [step, hst, holding, undone, Bool.not_true, Bool.false_eq_true, if_false, hbegin,
    hfetch]

theorem step_of_fetch_ok {fetched : Option Row} {t u : Session}
    (hbegin : s.begin e id st = (.ok (), t)) (hfetch : t.fetchCursor st.handle = (.ok fetched, u)) :
    s.step e id = u.arrive id st.handle fetched := by
  simp only [step, hst, holding, undone, Bool.not_true, Bool.false_eq_true, if_false, hbegin,
    hfetch]

/-- A refused cursor refuses the execution of a statement that has not started,
    and the fetch of one that has. -/
theorem step_refused (handle : Handle) (found : s.statement? id = some (st, handle))
    (x : EngineError) (hx : s.refusal? handle = some x) :
    ∃ t : Session, s.step e id = t.stepFailed st.handle x ∧
      t.Stands id st handle s.past s.isConnected := by
  have hself := stands_self s id st handle found
  have hh := ((statement?_eq_some_iff s id st handle).mp found).2
  rcases hstarted : st.started with _ | _
  · have hexec := executeCursor_refused e st.handle handle st.sql st.params
      (s.noted (.executing st.sql)) x hx
    exact ⟨_, step_of_begin_error e hst holding undone
      (begin_unstarted e s id st handle hstarted hh _ _ hexec),
      (hself.noted (.executing st.sql)).called _⟩
  · exact ⟨_, step_of_fetch_error e hst holding undone (begin_started e s id st hstarted)
      (fetchCursor_refused hself x hx), hself.called _⟩

/-- The second half of a step, once the cursor is readied: the fetch comes to
    the end of the result, to a row, or to a failure. -/
theorem fetch_turn (handle : Handle) (usable : s.refusal? handle = none) (c : Cursor)
    (ready : s.readied e st handle = .ok c) (t : Session)
    (hbegin : s.begin e id st = (.ok (), t))
    (ht : t.Stands id { st with started := true } { handle with cursor := c }
      (s.past ++ st.requests) s.isConnected) :
    ∃ st' handle', Turn e s st handle (s.step e id).1 st.requests st' handle' ∧
      (s.step e id).2.Stands id st' handle' (s.past ++ st.requests) s.isConnected := by
  -- The readied cursor can be used if the one before could.
  have husable : t.refusal? { handle with cursor := c } = none := by
    rcases readied_cursor ready with ⟨hconnection, hclosed⟩
    rw [ht.refusal]
    simp only [Cursor.refusal?, hconnection, hclosed]
    exact usable
  -- What the cursor holds next decides which of the three it is.
  rcases hpending : c.pending with _ | ⟨x | row, rest⟩
  · -- The cursor has nothing more, which completes the statement.
    have hnext : c.next = (.ok none, c) := by
      simp only [Cursor.next, hpending]
    rcases fetchCursor_next ht husable (.ok none) c hnext with ⟨u, hfetch, hu⟩
    have hstep := step_of_fetch_ok e hst holding undone hbegin hfetch
    refine ⟨{ st with started := true, done := true }, { handle with cursor := c, row := none },
      ?_, ?_⟩
    · rw [hstep]
      exact .ended c undone usable ready hpending
    · rw [hstep]
      exact (hu.onHandle fun h => { h with row := none }).onStatement
        (fun st => { st with done := true }) rfl
  · -- The cursor drops the rest, and the statement stays as started as it is.
    have hnext : c.next = (.error x, { c with pending := [] }) := by
      simp only [Cursor.next, hpending]
    rcases fetchCursor_next ht husable (.error x) _ hnext with ⟨u, hfetch, hu⟩
    have hstep := step_of_fetch_error e hst holding undone hbegin hfetch
    refine ⟨{ st with started := true },
      ({ handle with cursor := { c with pending := [] } } : Handle).failed x, ?_, ?_⟩
    · rw [hstep]
      exact .failed c x rest undone usable ready hpending
    · rw [hstep]
      exact stepFailed_stands hu x
  · have hnext : c.next = (.ok (some row), { c with pending := rest }) := by
      simp only [Cursor.next, hpending]
    rcases fetchCursor_next ht husable (.ok (some row)) _ hnext with ⟨u, hfetch, hu⟩
    have hstep := step_of_fetch_ok e hst holding undone hbegin hfetch
    refine ⟨{ st with started := true },
      { handle with cursor := { c with pending := rest }, row := some row }, ?_, ?_⟩
    · rw [hstep]
      exact .arrived c row rest undone usable ready hpending
    · rw [hstep]
      exact hu.onHandle fun h => { h with row := some row }

end

/-- A step of an open statement is a turn, and what stands afterwards is what
    the turn says. The connections are as open as before, and the engine has
    been asked what the turn has asked. -/
theorem step_turn (e : Engine) (s : Session) (id : StatementId) (st : Statement) (handle : Handle)
    (found : s.statement? id = some (st, handle)) (holding : st.holding = true) :
    ∃ asked st' handle', Turn e s st handle (s.step e id).1 asked st' handle' ∧
      (s.step e id).2.Stands id st' handle' (s.past ++ asked) s.isConnected := by
  have hst := ((statement?_eq_some_iff s id st handle).mp found).1
  -- The guards are taken in the order of the program: completed, refused,
  -- unexecuted, fetched.
  rcases hdone : st.done with _ | _
  · rcases hrefusal : s.refusal? handle with _ | x
    · rcases begin_cases e s id st handle found hrefusal with
        ⟨x, t, hbegin, ready, ht⟩ | ⟨c, t, hbegin, ready, ht⟩
      · have hstep := step_of_begin_error e hst holding hdone hbegin
        refine ⟨st.requests, st,
          ({ handle with cursor := handle.cursor.cleared } : Handle).failed x, ?_, ?_⟩
        · rw [hstep]
          exact .unexecuted x hdone hrefusal ready
        · rw [hstep]
          exact stepFailed_stands ht x
      · exact ⟨st.requests, fetch_turn e hst holding hdone handle hrefusal c ready t hbegin ht⟩
    · -- The engine is not asked, whether the refusal is of an execution or of a
      -- fetch.
      rcases step_refused e hst holding hdone handle found x hrefusal with ⟨t, hstep, ht⟩
      refine ⟨[], st, handle.failed x, ?_, ?_⟩
      · rw [hstep]
        exact .refused x hdone hrefusal
      · rw [hstep, List.append_nil]
        exact stepFailed_stands ht x
  · have hstep := step_completed e s id st hst holding hdone
    refine ⟨[], st, handle, ?_, ?_⟩
    · rw [hstep]
      exact .completed hdone
    · rw [hstep, List.append_nil]
      exact stands_self s id st handle found

/-- A run without rows answers as its step, except that a row is a fault and the
    end of the result is the count of affected rows. -/
theorem exec_answer (e : Engine) (s : Session) (id : StatementId) (st : Statement) (handle : Handle)
    (found : (s.step e id).2.statement? id = some (st, handle)) :
    (s.exec e id).1 = match (s.step e id).1 with
      | .error f => .error f
      | .ok true => .error (.access .unexpectedRow)
      | .ok false => .ok (max handle.cursor.rowCount 0) := by
  unfold exec
  rcases hstep : s.step e id with ⟨answer, t⟩
  rw [hstep] at found
  rcases answer with f | more
  · rfl
  · cases more with
    | true => rfl
    | false =>
        -- The count is read off the cursor as the step has left it.
        rcases (statement?_eq_some_iff t id st handle).mp found with ⟨hst, hh⟩
        simp only [hst, Option.bind_some, hh]

/-! ### Resetting -/

/-- A reset of an open statement takes its row and lets it start again. -/
theorem reset_stands (s : Session) (id : StatementId) (st : Statement) (handle : Handle)
    (found : s.statement? id = some (st, handle)) (holding : st.holding = true)
    (params : Option Params) :
    ∃ t, s.reset id params = (.ok (), t) ∧
      t.Stands id (st.restarted params) { handle with row := none } s.past s.isConnected := by
  have hst := ((statement?_eq_some_iff s id st handle).mp found).1
  have hself := stands_self s id st handle found
  refine ⟨_, ?_, ((hself.noted (.resetting st.sql)).onHandle
    (fun h => { h with row := none })).onStatement (Statement.restarted params) rfl⟩
  simp only [reset, hst, holding, Bool.not_true, Bool.false_eq_true, if_false]
  rfl

theorem reset_closed (s : Session) (id : StatementId) (st : Statement)
    (hst : s.statements[id]? = some st) (closed : st.holding = false) (params : Option Params) :
    s.reset id params = (.error (.access (.closedStatement st.sql)), s) := by
  simp only [reset, hst, closed, Bool.not_false, if_true]

end Session

end RowScope
