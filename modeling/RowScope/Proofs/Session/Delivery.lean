import RowScope.Proofs.Session.CurrentRow

/-!
# Delivery

What stepping through a result delivers if nothing fails: the rows in order, one
for each step, then the end, and after that nothing but refusals until the
statement is reset. The position is the number of steps so far, up to one more
than there are rows, and it determines all that can be seen of the statement.
Columns may be read and views released between the steps, in any number, without
moving the position.

A statement begins when it is made and whenever it is reset, and what happened
before that does not matter. Until it is moved it stays at its beginning,
whatever else happens.

## Main definitions

* `Command.reads`: A command reads columns, asks about something, or gives back
  views.
* `Session.Begins`: An open statement that was not executed since it was made or
  reset.
* `Session.Unfinalized`, `Session.Lives`: The handle of a statement is not
  finalized, at all or as long as the statement is open.
* `Session.Stage`: A statement at a position in its result.
* `Session.Delivers`: What is seen of a statement at a position.

## Theorems

* `reachable_usable`: A cursor is closed with its handle and not before.
* `reachable_undone`: A statement that was not executed is not done.
* `unmoved_kept`: A statement that is not moved goes on to execute the same.
* `prepare_begins`, `reset_begins`: A statement begins when it was made or
  reset.
* `Stage.reads`, `Stage.stepped`, `Stage.run`: How the position moves: by one
  with each step, also beyond the end, and not at all when something is read.
* `Begins.stage`: A statement that begins is at the first position.
* `delivery_exact`: Stepping delivers the result exactly.
-/

namespace RowScope

/-- A command reads columns, asks about something, or gives back views. -/
def Command.reads : Command → Prop
  | getColumn _ _ => True
  | peek _ _ _ => True
  | cells _ => True
  | columnIndex _ _ => True
  | isColumnNull _ _ => True
  | getColumns _ _ _ => True
  | releaseView _ => True
  | drop (.view _) => True
  | drop (.record _) => True
  | drop (.handle _) => True
  | query _ => True
  | _ => False

/-- A command steps a certain statement. -/
def Command.steps (id : StatementId) (c : Command) : Bool := c.stepped? == some id

/-- The footprint of such a command: views are made and given back, and names
    are looked up. -/
def Touch.isReading : Touch → Prop
  | places _ => True
  | view _ => True
  | release _ => True
  | _ => False

theorem Touch.isReading_of_ofReading (n : Nat) (id : StatementId) (key : Key) (a : Touch)
    (ha : Touch.ofReading n id key a) : a.isReading := by
  cases a with
  | places id' => trivial
  | view h => trivial
  | release v => trivial
  | _ => exact False.elim ha

theorem Command.keepsCounts_of_reads (c : Command) (hc : c.reads) : c.keepsCounts := by
  cases c with
  | share h => exact hc
  | release h => exact hc
  | setRow h row => exact hc
  | _ => trivial

theorem Command.keepsCounts_of_stepped (c : Command) (id : StatementId)
    (hc : c.stepped? = some id) : c.keepsCounts := by
  cases c with
  | step id' => trivial
  | exec id' => trivial
  | _ => cases hc

namespace Session

/-- A command that reads touches views and name tables, and nothing else. -/
theorem reads_leads (e : Engine) (c : Command) (hc : c.reads) (s : Session) :
    s.Leads Touch.isReading (s.perform e c).2 := by
  cases c with
  | getColumn id key =>
      simp only [perform, viewing_state]
      exact (getColumn_leads 0 id key s).mono (Touch.isReading_of_ofReading 0 id key)
  | peek id key g =>
      simp only [perform, plainly_state]
      exact (peek_leads 0 id key _ s (Nat.zero_le _)).mono (Touch.isReading_of_ofReading 0 id key)
  | cells id =>
      simp only [perform, plainly_state]
      exact (cells_leads id s).mono (Touch.isReading_of_ofReading _ id _)
  | columnIndex id name =>
      simp only [perform, plainly_state]
      exact ((columnIndex_leads id name s).mono (ofReading_of_ofLookup 0 id _)).mono
        (Touch.isReading_of_ofReading 0 id _)
  | isColumnNull id key =>
      simp only [perform, plainly_state]
      exact ((isColumnNull_leads id key s).mono (ofReading_of_ofLookup 0 id key)).mono
        (Touch.isReading_of_ofReading 0 id key)
  | getColumns id shape count =>
      simp only [perform, making_state]
      exact (getColumns_leads id shape count s).mono (Touch.isReading_of_ofReading _ id _)
  | releaseView v => exact Leads.one (.release v) trivial (.release v)
  | drop made =>
      cases made with
      | statement id => exact False.elim hc
      | view v => exact Leads.one (.release v) trivial (.release v)
      | handle h => exact Leads.refl _ s
      | record vs => exact releaseViews_leads _ vs (fun _ _ => trivial) s
  | query q => exact Leads.refl _ s
  | _ => exact False.elim hc

/-- A cursor is closed with its handle and not before, wherever commands lead.
    So a statement whose handle is not finalized can always be executed as far
    as its cursor is concerned. -/
theorem reachable_usable (e : Engine) (allowed : Command → Prop) (s : Session)
    (hs : Reachable e allowed s) (id : StatementId) (st : Statement) (handle : Handle)
    (found : s.statement? id = some (st, handle)) (unfinalized : handle.finalized = false) :
    handle.cursor.closed = false := by
  revert unfinalized
  refine reachable_statement e allowed
    (fun _ handle => handle.finalized = false → handle.cursor.closed = false) ?_ s hs id st handle
    found
  intro s t id c answer st' handle' _ _ ih passage unfinalized
  -- What is settled and did not end has the cursor that it had.
  have settled : ∀ {x y : Handle}, x.Settles y → y.finalized = false →
      (x.finalized = false → x.cursor.closed = false) → y.cursor.closed = false := by
    intro x y hxy hy hx
    rcases hxy.eq_of_open hy with ⟨shares, rfl⟩
    exact hx hy
  -- Only the end of a handle closes its cursor, and that finalizes it.
  cases passage with
  | prepared connection h sql params unmade => rfl
  | queried connection h sql params u unmade turn rests settles closed =>
      -- The cursor was new, and no turn closes one.
      refine settled settles unfinalized ?_
      intro _
      rw [turn.handle_kept.2.2]
      rfl
  | beside found unmoved unexecuted rests settles =>
      exact settled settles unfinalized (ih _ _ found)
  | rejected found moved closed same reported => exact ih _ _ found unfinalized
  | turned found holding stepped turn past reported =>
      rcases turn.handle_kept with ⟨hfin, -, hclosed⟩
      rw [hclosed]
      exact ih _ _ found (hfin.symm.trans unfinalized)
  | reset params found holding command reported =>
      have hopen := ih _ _ found unfinalized
      exact hopen
  | @executed x y found command past =>
      -- An execution replaces the result of the cursor and nothing else.
      have hopen := ih _ _ found unfinalized
      rcases e.execute s.past y.sql .empty with f | a
      · exact hopen
      · exact hopen
  | rowSet row found command =>
      have hopen := ih _ _ found unfinalized
      exact hopen

/-- A statement that was not executed is not done, wherever commands lead. -/
theorem reachable_undone (e : Engine) (allowed : Command → Prop) (s : Session)
    (hs : Reachable e allowed s) (id : StatementId) (st : Statement) (handle : Handle)
    (found : s.statement? id = some (st, handle)) (unstarted : st.started = false) :
    st.done = false := by
  revert unstarted
  refine reachable_statement e allowed (fun st _ => st.started = false → st.done = false) ?_ s hs id
    st handle found
  intro s t id c answer st' handle' _ _ ih passage unstarted
  -- A turn after which the statement has not started leaves it as it was.
  have turned : ∀ {u x y hx hy told asked}, Turn e u x hx told asked y hy → y.started = false →
      y = x := by
    intro u x y hx hy told asked turn hy
    cases turn with
    | completed _ => rfl
    | refused _ _ _ => rfl
    | unexecuted _ _ _ _ => rfl
    | _ => exact Bool.noConfusion hy
  cases passage with
  | prepared connection h sql params unmade => rfl
  | queried connection h sql params u unmade turn rests settles closed =>
      rw [rests.done, turned turn (rests.started.symm.trans unstarted)]
      rfl
  | beside found unmoved unexecuted rests settles =>
      exact rests.done.trans (ih _ _ found (rests.started.symm.trans unstarted))
  | rejected found moved closed same reported => exact ih _ _ found unstarted
  | turned found holding stepped turn past reported =>
      have hsame := turned turn unstarted
      rw [hsame] at unstarted ⊢
      exact ih _ _ found unstarted
  | reset params found holding command reported => rfl
  | executed found command past => exact ih _ _ found unstarted
  | rowSet row found command => exact ih _ _ found unstarted

/-! ### Beginnings -/

/-- An open statement, on an open connection, that was not executed since it was
    made or reset. Its next step will execute this SQL with these parameters. -/
inductive Begins (s : Session) (id : StatementId) : Sql → Params → Prop
  | intro (st : Statement) (handle : Handle) (found : s.statement? id = some (st, handle))
      (holding : st.holding = true) (unstarted : st.started = false)
      (connected : s.isConnected handle.cursor.connection = true) : Begins s id st.sql st.params

/-- A statement that is not moved will execute what it would have executed
    before, if it was not executed yet. Whatever else is done meanwhile, with
    other statements or with its own handle, does not change what it was made
    for. -/
theorem unmoved_kept (e : Engine) (cs : List Command) (s : Session) (hs : s.Separate)
    (id : StatementId) (st : Statement) (handle : Handle)
    (found : s.statement? id = some (st, handle)) (hcs : ∀ c ∈ cs, c.moved? ≠ some id) :
    ∃ st' handle', (s.run e cs).2.statement? id = some (st', handle') ∧ st'.sql = st.sql ∧
      st'.params = st.params ∧ st'.started = st.started := by
  induction cs generalizing s st handle with
  | nil => exact ⟨st, handle, found, rfl, rfl, rfl⟩
  | cons c rest ih =>
      have unmoved : c.moved? ≠ some id := hcs c List.mem_cons_self
      have hnext := hs.leads (perform_leads e c s)
      have hst := ((statement?_eq_some_iff s id st handle).mp found).1
      rcases (perform_leads e c s).statement_kept id st hst with ⟨st1, hst1, -⟩
      rcases hnext.found _ id st1 hst1 with ⟨handle1, found1⟩
      have hone : st1.sql = st.sql ∧ st1.params = st.params ∧ st1.started = st.started := by
        cases perform_passage e c s hs id st1 handle1 found1 with
        | prepared connection h sql params unmade =>
            -- The statement is no new one.
            rw [hst] at unmade
            cases unmade
        | queried connection h sql params u unmade turn rests settles closed =>
            rw [hst] at unmade
            cases unmade
        | beside hfound _ _ rests _ =>
            rw [(found_unique found hfound).1]
            exact ⟨rests.sql, rests.params, rests.started⟩
        | rejected _ moved _ _ _ => exact absurd moved unmoved
        | turned _ _ stepped _ _ _ => exact absurd (c.moved_of_stepped id stepped) unmoved
        | reset params _ _ command _ =>
            rw [command] at unmoved
            exact absurd rfl unmoved
        | executed hfound _ _ =>
            rw [(found_unique found hfound).1]
            exact ⟨rfl, rfl, rfl⟩
        | rowSet row hfound _ =>
            rw [(found_unique found hfound).1]
            exact ⟨rfl, rfl, rfl⟩
      have hrest : ∀ c' ∈ rest, c'.moved? ≠ some id := fun c' hc' =>
        hcs c' (List.mem_cons_of_mem c hc')
      rcases ih _ hnext st1 handle1 found1 hrest with
        ⟨st2, handle2, found2, hsql, hparams, hstarted⟩
      exact ⟨st2, handle2, found2, hsql.trans hone.1, hparams.trans hone.2.1,
        hstarted.trans hone.2.2⟩

/-- A statement that was made and not moved since begins, if it is still open,
    on an open connection. -/
theorem prepare_begins (e : Engine) (sql : Sql) (params : Params) (s t : Session) (hs : s.Separate)
    (id : StatementId) (made : s.prepare sql params = (.ok id, t)) (cs : List Command)
    (hcs : ∀ c ∈ cs, c.moved? ≠ some id) (st : Statement) (handle : Handle)
    (found : (t.run e cs).2.statement? id = some (st, handle)) (holding : st.holding = true)
    (connected : (t.run e cs).2.isConnected handle.cursor.connection = true) :
    (t.run e cs).2.Begins id sql params := by
  have ht := hs.leads (prepare_leads (fun _ => True) trivial sql params s)
  rw [made] at ht
  rcases prepare_ok sql params s t id made with ⟨rfl, connection, rfl⟩
  have hnew := newStatement_found connection sql params s
  rcases unmoved_kept e cs _ ht _ _ _ hnew hcs with ⟨st', handle', found', hsql, hparams, hstarted⟩
  rcases found_unique found' found with ⟨rfl, rfl⟩
  have hbegins := Begins.intro st' handle' found' holding hstarted connected
  rw [hsql, hparams] at hbegins
  exact hbegins

/-- So does a statement that was reset, with the parameters that it was given
    then. -/
theorem reset_begins (s : Session) (id : StatementId) (st : Statement) (handle : Handle)
    (found : s.statement? id = some (st, handle)) (holding : st.holding = true)
    (connected : s.isConnected handle.cursor.connection = true) (params : Option Params) :
    ∃ t, s.reset id params = (.ok (), t) ∧ t.Begins id st.sql (params.getD st.params) := by
  rcases reset_stands s id st handle found holding params with ⟨t, hreset, stands⟩
  refine ⟨t, hreset, .intro _ _ stands.found holding rfl ?_⟩
  rw [stands.connected]
  exact connected

/-! ### Handles of open statements -/

/-- The handle of a statement is not finalized. -/
def Unfinalized (s : Session) (id : StatementId) : Prop :=
  ∃ st handle, s.statement? id = some (st, handle) ∧ handle.finalized = false

/-- As long as a statement is open its handle is not. -/
def Lives (s : Session) (id : StatementId) : Prop :=
  ∀ st handle, s.statement? id = some (st, handle) → st.holding = true → handle.finalized = false

/-- So it is in every session of a run. -/
def LivesThrough (e : Engine) (id : StatementId) : List Command → Session → Prop
  | [], s => s.Lives id
  | c :: rest, s => s.Lives id ∧ LivesThrough e id rest (s.perform e c).2

theorem LivesThrough.start {e : Engine} {id : StatementId} {cs : List Command} {s : Session}
    (h : LivesThrough e id cs s) : s.Lives id := by
  cases cs with
  | nil => exact h
  | cons c rest => exact h.1

/-- Nobody can finalize the handle without giving back a share of the
    statement. -/
theorem livesThrough_of_keepsCounts (e : Engine) (id : StatementId) (cs : List Command)
    (s : Session) (hs : Reachable e Command.keepsCounts s) (hcs : ∀ c ∈ cs, c.keepsCounts) :
    LivesThrough e id cs s := by
  induction cs generalizing s with
  | nil => exact open_unfinalized e s hs id
  | cons c rest ih =>
      refine ⟨open_unfinalized e s hs id, ih _ (hs.perform c (hcs c List.mem_cons_self)) ?_⟩
      intro c' hc'
      exact hcs c' (List.mem_cons_of_mem c hc')

/-- A handle that is not finalized in the end was not finalized on the way. -/
theorem Unfinalized.before {e : Engine} {id : StatementId} {cs : List Command} {s : Session}
    (h : (s.run e cs).2.Unfinalized id) (st : Statement) (handle : Handle)
    (found : s.statement? id = some (st, handle)) : handle.finalized = false := by
  induction cs generalizing s st handle with
  | nil =>
      rcases h with ⟨st', handle', found', unfinalized⟩
      rw [(found_unique found found').2]
      exact unfinalized
  | cons c rest ih =>
      rcases (statement?_eq_some_iff s id st handle).mp found with ⟨hst, hh⟩
      have hleads := perform_leads e c s
      rcases hleads.statement_kept id st hst with ⟨st1, hst1, hsame, -⟩
      rcases hleads.handle_kept st.handle handle hh with ⟨handle1, hh1, -, -, hfin⟩
      rw [← hsame] at hh1
      have hopen := ih h st1 handle1 ((statement?_eq_some_iff _ id st1 handle1).mpr ⟨hst1, hh1⟩)
      -- If it was finalized before, it still is.
      rcases hf : handle.finalized with _ | _
      · rfl
      · exact absurd (hopen.symm.trans (hfin hf)) Bool.noConfusion

/-- So it is enough to look at the end of a run. -/
theorem Unfinalized.livesThrough {e : Engine} {id : StatementId} (cs : List Command) (s : Session)
    (h : (s.run e cs).2.Unfinalized id) : LivesThrough e id cs s := by
  induction cs generalizing s with
  | nil =>
      intro st handle found _
      exact @Unfinalized.before e id [] s h st handle found
  | cons c rest ih =>
      refine ⟨?_, ih _ h⟩
      intro st handle found _
      exact h.before st handle found

/-! ### Positions -/

/-- A statement at a position in its result: so many steps were made, and the
    rest of the rows is what the next fetches deliver. -/
structure Stage (e : Engine) (sql : Sql) (params : Params) (rowCount : Int) (rows : List Row)
    (k : Nat) (s : Session) (st : Statement) (handle : Handle) : Prop where
  holding : st.holding = true
  sql : st.sql = sql
  params : st.params = params
  done : st.done = decide (rows.length < k)
  row : 0 < k → handle.row = rows[k - 1]?
  usable : s.refusal? handle = none
  ready : st.done = false → ∃ c, s.readied e st handle = .ok c ∧
    c.pending = (rows.drop k).map .ok ∧ c.rowCount = rowCount

theorem connected_of_usable {s : Session} {handle : Handle} (usable : s.refusal? handle = none) :
    s.isConnected handle.cursor.connection = true := by
  rcases hconnected : s.isConnected handle.cursor.connection with _ | _
  · rw [refusal?, Cursor.refusal?, hconnected] at usable
    split at usable
    · cases usable
    · cases usable
  · rfl

section

variable {e : Engine} {sql : Sql} {params : Params} {rowCount : Int} {rows : List Row} {k : Nat}
  {s : Session} {id : StatementId} {st : Statement} {handle : Handle}

/-- Reading does not move the position. It gives back no share of the statement
    and asks the engine for nothing, so even an execution that is still to come
    will have the same answer. -/
theorem Stage.reads (stage : Stage e sql params rowCount rows k s st handle)
    (found : s.statement? id = some (st, handle)) (c : Command) (hc : c.reads)
    (lives : (s.perform e c).2.Lives id) :
    ∃ st' handle', (s.perform e c).2.statement? id = some (st', handle') ∧
      Stage e sql params rowCount rows k (s.perform e c).2 st' handle' := by
  have hleads := reads_leads e c hc s
  have hst := ((statement?_eq_some_iff s id st handle).mp found).1
  rcases hleads.rests id st handle found False.elim False.elim False.elim False.elim with
    ⟨st', handle', found', rests, settles⟩
  rcases hleads.surroundings False.elim with ⟨hpast, hconnections⟩
  have hst' := ((statement?_eq_some_iff _ id st' handle').mp found').1
  -- Reading closes no statement, so the handle did not end.
  have hholding : st'.holding = true := by
    rcases hleads.statement_kept id st hst with ⟨st2, hst2, -, hheld, -⟩
    rw [hst', Option.some.injEq] at hst2
    rw [hst2, hheld False.elim]
    exact stage.holding
  rcases settles.eq_of_open (lives st' handle' found' hholding) with ⟨shares, rfl⟩
  -- Reading asks for nothing, so an execution that is still to come has the
  -- same answer.
  have hready : (s.perform e c).2.readied e st' { handle with shares := shares } =
      s.readied e st handle := by
    unfold readied
    rw [rests.started, rests.sql, rests.params, hpast]
  refine ⟨st', _, found', hholding, rests.sql.trans stage.sql, rests.params.trans stage.params,
    rests.done.trans stage.done, stage.row, ?_, ?_⟩
  · have husable := stage.usable
    unfold refusal? isConnected at husable ⊢
    rw [hconnections]
    exact husable
  · intro hundone
    rw [hready]
    exact stage.ready (rests.done.symm.trans hundone)

/-- As long as the statement is not done, the position is within the result. -/
theorem Stage.within (stage : Stage e sql params rowCount rows k s st handle)
    (undone : st.done = false) : k ≤ rows.length := by
  have hdone := stage.done
  rw [undone] at hdone
  exact Nat.le_of_not_lt (of_decide_eq_false hdone.symm)

/-- A statement that is done is past the end of its result, and there is no
    row. -/
theorem Stage.beyond (stage : Stage e sql params rowCount rows k s st handle)
    (done : st.done = true) : rows.length < k ∧ handle.row = none := by
  have hdone := stage.done
  rw [done] at hdone
  have hlt : rows.length < k := of_decide_eq_true hdone.symm
  refine ⟨hlt, ?_⟩
  rw [stage.row (Nat.zero_lt_of_lt hlt), List.getElem?_eq_none (Nat.le_sub_one_of_lt hlt)]

/-- Whichever way the cursor was readied, it holds the rows from the position
    on. -/
theorem Stage.rest (stage : Stage e sql params rowCount rows k s st handle)
    (undone : st.done = false) {c : Cursor} (readied : s.readied e st handle = .ok c) :
    c.pending = (rows.drop k).map .ok ∧ c.rowCount = rowCount := by
  rcases stage.ready undone with ⟨c', hc', hrest⟩
  rw [readied, Except.ok.injEq] at hc'
  rw [hc']
  exact hrest

/-- The first of the rest is the row at the position, and it is no failure. -/
theorem rest_cons {next : Except EngineError Row} {rest : List (Except EngineError Row)}
    (h : (rows.drop k).map .ok = next :: rest) :
    k < rows.length ∧ next.toOption = rows[k]? ∧ next.isOk = true ∧
      rest = (rows.drop (k + 1)).map .ok := by
  have hlt : k < rows.length := by
    rcases Nat.lt_or_ge k rows.length with hlt | hge
    · exact hlt
    · rw [List.drop_eq_nil_of_le hge] at h
      cases h
  rw [List.drop_eq_getElem_cons hlt, List.map_cons, List.cons.injEq] at h
  rcases h with ⟨rfl, rfl⟩
  exact ⟨hlt, (List.getElem?_eq_getElem hlt).symm, rfl, rfl⟩

/-- A step moves the position by one. Of the six kinds of turns two cannot
    happen, since the cursor can be used and the execution succeeds, and one
    more cannot, since no fetch fails. The other three say that a row comes as
    long as there is one, that then comes the end, and that after it the step is
    refused; a refused step counts like any other. -/
theorem Stage.stepped (stage : Stage e sql params rowCount rows k s st handle)
    (found : s.statement? id = some (st, handle)) (c : Command) (hc : c.stepped? = some id) :
    ∃ st' handle', (s.perform e c).2.statement? id = some (st', handle') ∧
      Stage e sql params rowCount rows (k + 1) (s.perform e c).2 st' handle' ∧
      (k ≤ rows.length → handle'.cursor.rowCount = rowCount) ∧
      (s.perform e c).1.answer = c.told
        (if rows.length < k then .error (.access .completed) else .ok (decide (k < rows.length)))
        handle' := by
  rcases perform_turn e c s id st handle found stage.holding hc with
    ⟨told, asked, st', handle', turn, stands, reported⟩
  have husable : (s.perform e c).2.refusal? handle' = none := by
    rw [stands.refusal, turn.refusal_kept]
    exact stage.usable
  refine ⟨st', handle', stands.found, ?_⟩
  cases turn with
  | completed done =>
      rcases stage.beyond done with ⟨hlt, hrow⟩
      rw [if_pos hlt]
      refine ⟨⟨stage.holding, stage.sql, stage.params, ?_, ?_, husable, ?_⟩,
        fun hle => absurd hlt (Nat.not_lt.mpr hle), reported⟩
      · rw [done, decide_eq_true (Nat.lt_succ_of_lt hlt)]
      · -- There is no row at either position.
        intro _
        rw [hrow, Nat.add_sub_cancel, List.getElem?_eq_none (Nat.le_of_lt hlt)]
      · intro undone
        rw [done] at undone
        exact Bool.noConfusion undone
  | refused x _ refusal =>
      rw [stage.usable] at refusal
      cases refusal
  | unexecuted x undone _ readied =>
      rcases stage.ready undone with ⟨c', hc', -⟩
      rw [readied] at hc'
      cases hc'
  | ended c' undone _ readied pending =>
      have hle := stage.within undone
      rcases stage.rest undone readied with ⟨hpending, hcount⟩
      rw [pending] at hpending
      have hge := List.drop_eq_nil_iff.mp (List.map_eq_nil_iff.mp hpending.symm)
      rw [if_neg (Nat.not_lt.mpr hle), decide_eq_false (Nat.not_lt.mpr hge)]
      refine ⟨⟨stage.holding, stage.sql, stage.params, ?_, ?_, husable, ?_⟩, fun _ => hcount,
        reported⟩
      · rw [decide_eq_true (Nat.lt_succ_of_le hge)]
      · intro _
        rw [Nat.add_sub_cancel, List.getElem?_eq_none hge]
      · intro hc'
        exact Bool.noConfusion hc'
  | arrived c' row rest undone _ readied pending =>
      rcases stage.rest undone readied with ⟨hpending, hcount⟩
      rw [pending] at hpending
      rcases rest_cons hpending.symm with ⟨hlt, hrow, -, hrest⟩
      rw [if_neg (Nat.not_lt.mpr (stage.within undone)), decide_eq_true hlt]
      refine ⟨⟨stage.holding, stage.sql, stage.params, ?_, ?_, husable, ?_⟩, fun _ => hcount,
        reported⟩
      · rw [decide_eq_false (Nat.not_lt.mpr hlt)]
        exact undone
      · intro _
        rw [Nat.add_sub_cancel]
        exact hrow
      · intro _
        exact ⟨_, rfl, hrest, hcount⟩
  | failed c' x rest undone _ readied pending =>
      -- No failure is among the rest.
      rw [(stage.rest undone readied).1] at pending
      exact Bool.noConfusion (rest_cons pending).2.2.1

/-- In a run the position moves by the number of steps. The induction is on the
    commands, and each of them is a step of the statement or a reading. -/
theorem Stage.run (stage : Stage e sql params rowCount rows k s st handle)
    (found : s.statement? id = some (st, handle)) (cs : List Command)
    (hcs : ∀ c ∈ cs, c.stepped? = some id ∨ c.reads) (lives : LivesThrough e id cs s) :
    ∃ st' handle', (s.run e cs).2.statement? id = some (st', handle') ∧
      Stage e sql params rowCount rows (k + cs.countP (Command.steps id)) (s.run e cs).2 st'
        handle' := by
  induction cs generalizing s k st handle with
  | nil => exact ⟨st, handle, found, stage⟩
  | cons c rest ih =>
      have hrest : ∀ c' ∈ rest, c'.stepped? = some id ∨ c'.reads := fun c' hc' =>
        hcs c' (List.mem_cons_of_mem c hc')
      -- A step moves the position by one, a reading leaves it; `LivesThrough`
      -- says that the handle is there for both.
      by_cases hc : c.stepped? = some id
      · rcases stage.stepped found c hc with ⟨st1, handle1, found1, stage1, -⟩
        have hsteps : Command.steps id c = true := beq_iff_eq.mpr hc
        have hcount : k + (c :: rest).countP (Command.steps id) =
            k + 1 + rest.countP (Command.steps id) := by
          rw [List.countP_cons_of_pos hsteps]
          omega
        rw [hcount]
        exact ih stage1 found1 hrest lives.2
      · have hreads : c.reads := (hcs c List.mem_cons_self).resolve_left hc
        rcases stage.reads found c hreads lives.2.start with ⟨st1, handle1, found1, stage1⟩
        have hsteps : ¬Command.steps id c = true := fun heq => hc (beq_iff_eq.mp heq)
        rw [List.countP_cons_of_neg hsteps]
        exact ih stage1 found1 hrest lives.2

/-- A statement that begins is at the first position of the result that the
    engine will answer with. -/
theorem Begins.stage (hs : Reachable e (fun _ => True) s) (begins : Begins s id sql params)
    (lives : s.Lives id) (a : Answer) (ha : e.execute s.past sql params = .ok a)
    (hrows : a.rows = rows.map .ok) :
    ∃ st handle, s.statement? id = some (st, handle) ∧
      Stage e sql params a.rowCount rows 0 s st handle := by
  rcases begins with ⟨st, handle, found, holding, unstarted, connected⟩
  have hopen := lives st handle found holding
  have hclosed := reachable_usable e _ s hs id st handle found hopen
  have undone := reachable_undone e _ s hs id st handle found unstarted
  refine ⟨st, handle, found, holding, rfl, rfl, undone, ?_, ?_, ?_⟩
  · intro hpos
    exact absurd hpos (Nat.lt_irrefl 0)
  · simp only [refusal?, Cursor.refusal?, hclosed, connected, Bool.false_eq_true, if_false, if_true]
  · intro _
    refine ⟨handle.cursor.cleared.holding a, ?_, hrows, rfl⟩
    simp only [readied, unstarted, Bool.false_eq_true, if_false, ha, Except.map]

end

/-- What is seen of a statement after so many steps through a result. -/
structure Delivers (e : Engine) (sql : Sql) (params : Params) (rowCount : Int) (rows : List Row)
    (k : Nat) (s : Session) (id : StatementId) : Prop where
  -- The last row that was delivered is current, and it is the last one stepped
  -- to.
  row : 0 < k → s.rowOf id = rows[k - 1]?
  -- The statement is done if the end was reached.
  done : s.ask (.isDone id) = .ok (.truth (decide (rows.length < k)))
  -- The next step says whether there is another row.
  next : k ≤ rows.length →
    (s.perform e (.step id)).1.answer = .ok (.truth (decide (k < rows.length)))
  -- Beyond the end there are only refusals, and nothing else happens.
  refused : rows.length < k →
    s.step e id = (.error (.access .completed), s) ∧ s.exec e id = (.error (.access .completed), s)
  -- A run without rows, as the first step, has the count of affected rows to
  -- report.
  rowless : k = 0 → rows = [] →
    (s.perform e (.exec id)).1.answer = .ok (.integer (max rowCount 0))
  -- If there is a row the run complains about it, and leaves it current.
  rowful : ∀ r rest, k = 0 → rows = r :: rest →
    (s.perform e (.exec id)).1.answer = .error (.access .unexpectedRow) ∧
      (s.perform e (.exec id)).2.rowOf id = some r
  -- A reset is a new beginning, with other parameters or the same.
  restart : ∀ params', ∃ t, s.reset id params' = (.ok (), t) ∧ t.Begins id sql (params'.getD params)

/-- All that is seen of a statement follows from its position. -/
theorem Stage.delivers {e : Engine} {sql : Sql} {params : Params} {rowCount : Int}
    {rows : List Row} {k : Nat} {s : Session} {id : StatementId} {st : Statement} {handle : Handle}
    (stage : Stage e sql params rowCount rows k s st handle)
    (found : s.statement? id = some (st, handle)) :
    Delivers e sql params rowCount rows k s id := by
  have hst := ((statement?_eq_some_iff s id st handle).mp found).1
  refine ⟨?_, ?_, ?_, ?_, ?_, ?_, ?_⟩
  · rw [rowOf_found found]
    exact stage.row
  · rw [ask, askStatement, found, ← stage.done]
  · -- The next step and the first run are turns, and the position says of which
    -- kind.
    intro hle
    rcases stage.stepped found (.step id) rfl with ⟨st', handle', -, -, -, hanswer⟩
    rw [if_neg (Nat.not_lt.mpr hle)] at hanswer
    exact hanswer
  · intro hlt
    have hdone : st.done = true := stage.done.trans (decide_eq_true hlt)
    have hstep := step_completed e s id st hst stage.holding hdone
    refine ⟨hstep, ?_⟩
    rw [exec, hstep]
  · intro hzero hnil
    rcases stage.stepped found (.exec id) rfl with ⟨st', handle', -, -, hcount, hanswer⟩
    subst hzero hnil
    rw [← hcount (Nat.le_refl 0)]
    exact hanswer
  · intro r rest hzero hcons
    rcases stage.stepped found (.exec id) rfl with ⟨st', handle', found', stage', -, hanswer⟩
    subst hzero hcons
    rw [rowOf_found found', stage'.row Nat.zero_lt_one]
    exact ⟨hanswer, rfl⟩
  · intro params'
    rw [← stage.sql, ← stage.params]
    exact reset_begins s id st handle found stage.holding (connected_of_usable stage.usable) params'

/-- Stepping delivers the result exactly. If a statement that begins will
    succeed with its execution and all its fetches, what is seen of it depends
    on the number of steps only, whatever is read between them. For a fetch to
    succeed the handle may not be finalized; it is not as long as nobody gives
    back a share of somebody else.

    The rows are those of the answer that the engine gives at the beginning, and
    the execution itself comes with the first step. Nothing that is asked of the
    engine lies between, so that the answer is the same. -/
theorem delivery_exact (e : Engine) (s : Session) (hs : Reachable e (fun _ => True) s)
    (id : StatementId) (sql : Sql) (params : Params) (begins : s.Begins id sql params) (a : Answer)
    (ha : e.execute s.past sql params = .ok a) (rows : List Row) (hrows : a.rows = rows.map .ok)
    (cs : List Command) (hcs : ∀ c ∈ cs, c.stepped? = some id ∨ c.reads)
    (kept : Reachable e Command.keepsCounts s ∨ (s.run e cs).2.Unfinalized id) :
    Delivers e sql params a.rowCount rows (cs.countP (Command.steps id)) (s.run e cs).2 id := by
  have lives : LivesThrough e id cs s := by
    rcases kept with hkeeps | unfinalized
    · refine livesThrough_of_keepsCounts e id cs s hkeeps ?_
      intro c hc
      rcases hcs c hc with hstepped | hreads
      · exact c.keepsCounts_of_stepped id hstepped
      · exact c.keepsCounts_of_reads hreads
    · exact unfinalized.livesThrough cs s
  rcases begins.stage hs lives.start a ha hrows with ⟨st, handle, found, stage⟩
  rcases stage.run found cs hcs lives with ⟨st', handle', found', stage'⟩
  rw [Nat.zero_add] at stage'
  exact stage'.delivers found'

/-- A program that makes a statement. -/
def preparing : List Command := [.openDatabase, .prepare (.text []) .empty]

/-- A program that steps over a row and reads it. -/
def steppingOver : List Command := [.step 0, .getColumn 0 (.index 0), .step 0]

theorem preparing_reachable (allowed : Command → Prop) (hall : ∀ c, c.keepsCounts → allowed c) :
    Reachable .oneRow allowed (unopened.run .oneRow preparing).2 := by
  refine reachable_run .oneRow _ preparing unopened (.start [] .standard ⟨.root, []⟩) ?_
  intro c hc
  simp only [preparing, List.mem_cons, List.not_mem_nil, or_false] at hc
  rcases hc with rfl | rfl
  · exact hall _ trivial
  · exact hall _ trivial

theorem steppingOver_steps (c : Command) (hc : c ∈ steppingOver) :
    c.stepped? = some 0 ∨ c.reads := by
  simp only [steppingOver, List.mem_cons, List.not_mem_nil, or_false] at hc
  rcases hc with rfl | rfl | rfl
  · exact Or.inl rfl
  · exact Or.inr trivial
  · exact Or.inl rfl

/-- After its only row the statement is done, and can begin again. -/
theorem delivery_exact_steppingOver :
    Delivers .oneRow (.text []) .empty (-1) [[.integer 7]] 2
      ((unopened.run .oneRow preparing).2.run .oneRow steppingOver).2 0 := by
  have hs := preparing_reachable (fun _ => True) fun _ _ => trivial
  have hkeeps := preparing_reachable Command.keepsCounts fun _ hc => hc
  have begins : (unopened.run .oneRow preparing).2.Begins 0 (.text []) .empty :=
    .intro (.fresh 0 (.text []) .empty) _ rfl rfl rfl rfl
  exact delivery_exact .oneRow _ hs 0 _ _ begins _ rfl [[.integer 7]] rfl steppingOver
    steppingOver_steps (Or.inl hkeeps)

end Session

end RowScope
