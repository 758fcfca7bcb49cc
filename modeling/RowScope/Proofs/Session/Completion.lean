import RowScope.Proofs.Session.Deeds

/-!
# Completion

What it means that a statement reports the end of its result. Of every execution
there is a *course*, which is kept beside the session: the rows that the engine
has answered with, those among them that were made current since, and the
failures that were reported since. What the cursor still has to deliver is the
rest of the rows. It is lost when a fetch fails, because the cursor is left with
nothing, and nothing in the flags of the statement tells that from the end of
the result: the step after a failed fetch reports completion, however many rows
there were behind the failure.

So a reported completion says that the rows were delivered in order up to the
end, or up to the first row that could not be fetched, and in the second case
that failure was reported before.

## Main definitions

* `Course`: What is known about an execution.
* `Deed.execution?`: The answer to the execution that a deed has asked for.
* `Session.course`: The course of the last execution in a run.
* `Course.Continues`: The rest of an execution is what a cursor still delivers.

## Theorems

* `Continues.reported`, `Continues.delivered`, `Continues.lost`: What each
  report of a step does to that.
* `Continues.complete_iff`: At the end nothing was lost if and only if no fetch
  fails.
* `Turn.course`: A step keeps the course of an execution and its cursor
  together.
* `execution?_of_turn`, `execution?_beside`, `execution?_direct`: Which deeds
  begin a course.
* `course_continues`: In every run they are together, as long as the statement
  is open.
* `completes_open`: Nothing but an open statement reports completion.
* `completion_accounted`: What a reported completion says.
-/

namespace RowScope

/-- What is known about an execution on the cursor of a statement. -/
structure Course where
  -- What the fetches yield, in order.
  rows : List (Except EngineError Row)
  -- The rows that were made current, in order.
  seen : List Row
  -- The failures that steps have reported.
  faults : List Fault

/-- The rows that an execution answers with. -/
def Answer.fetches : Except EngineError Answer → List (Except EngineError Row)
  | .ok a => a.rows
  | .error _ => []

/-- What a command executes on the cursor of a statement, unless it need not or
    may not. -/
def Command.executes? (id : StatementId) (st : Statement) (handle : Handle) :
    Command → Option (Sql × Params)
  | step id' => if id' = id then some (st.sql, st.params) else none
  | exec id' => if id' = id then some (st.sql, st.params) else none
  | executeHandle h => if h = st.handle then some (handle.sql, .empty) else none
  | _ => none

namespace Deed

/-- The answer to an execution on the cursor of a statement, if the engine was
    asked for one. -/
def execution? (e : Engine) (id : StatementId) (d : Deed) : Option (Except EngineError Answer) := do
  let (st, handle) ← d.before.statement? id
  let (sql, params) ← d.command.executes? id st handle
  if (d.after e).past = d.before.past ++ [.execute sql params] then
    some (e.execute d.before.past sql params)
  else none

/-- A deed was a step that has reported the end of the result. -/
def completes (e : Engine) (d : Deed) : Bool :=
  match d.command, d.answer e with
  | .step _, .ok (.truth more) => !more
  | .exec _, .ok _ => true
  | _, _ => false

end Deed

namespace Course

/-- The course of an execution that was just answered. -/
def begun (answer : Except EngineError Answer) : Course := ⟨Answer.fetches answer, [], []⟩

/-- What becomes known by a step: a row, or a failure. -/
def stepped (e : Engine) (id : StatementId) (d : Deed) (k : Course) : Course :=
  if d.gotRow e then { k with seen := k.seen ++ ((d.after e).rowOf id).toList }
  else match d.answer e with
    | .error f => { k with faults := k.faults ++ [f] }
    | .ok _ => k

/-- The same by the answer of the step itself, and the row after it. -/
def told (answer : Except Fault Bool) (row : Option Row) (k : Course) : Course :=
  match answer with
  | .ok true => { k with seen := k.seen ++ row.toList }
  | .ok false => k
  | .error f => { k with faults := k.faults ++ [f] }

/-- What becomes of a course by a deed, which may begin another one. -/
def next (e : Engine) (id : StatementId) (k : Option Course) (d : Deed) : Option Course :=
  let k := match d.execution? e id with
    | some answer => some (begun answer)
    | none => k
  if d.command.stepped? = some id then k.map (stepped e id d) else k

/-- The rest of an execution is what a cursor still delivers, or it was lost by
    a failed fetch. -/
def Continues (k : Course) (pending : List (Except EngineError Row)) : Prop :=
  k.rows = k.seen.map .ok ++ pending ∨
    pending = [] ∧ ∃ x rest, k.rows = k.seen.map .ok ++ .error x :: rest ∧ .ofEngine x ∈ k.faults

theorem begun_continues (answer : Except EngineError Answer) :
    (begun answer).Continues (Answer.fetches answer) :=
  Or.inl rfl

/-- A failure that loses nothing changes nothing: it is known, and the rest is
    as it was. -/
theorem Continues.reported {k : Course} {pending : List (Except EngineError Row)}
    (hk : k.Continues pending) (f : Fault) :
    ({ k with faults := k.faults ++ [f] } : Course).Continues pending := by
  rcases hk with hrows | ⟨hnone, x, rest, hrows, hx⟩
  · exact Or.inl hrows
  · exact Or.inr ⟨hnone, x, rest, hrows, List.mem_append_left [f] hx⟩

/-- A row that was fetched goes from the rest to what was seen. That there was a
    row shows that nothing had been lost. -/
theorem Continues.delivered {k : Course} {row : Row} {rest : List (Except EngineError Row)}
    (hk : k.Continues (.ok row :: rest)) :
    ({ k with seen := k.seen ++ [row] } : Course).Continues rest := by
  rcases hk with hrows | ⟨hnone, -⟩
  · refine Or.inl ?_
    simp only [hrows, List.map_append, List.map_cons, List.map_nil, List.append_assoc,
      List.cons_append, List.nil_append]
  · cases hnone

/-- A fetch that fails loses the rest. From then on the cursor has nothing, and
    the failure is among those that were reported. -/
theorem Continues.lost {k : Course} {x : EngineError} {rest : List (Except EngineError Row)}
    (hk : k.Continues (.error x :: rest)) :
    ({ k with faults := k.faults ++ [.ofEngine x] } : Course).Continues [] := by
  rcases hk with hrows | ⟨hnone, -⟩
  · exact Or.inr ⟨rfl, x, rest, hrows, List.mem_append_right _ List.mem_cons_self⟩
  · cases hnone

/-- At the end nothing was lost if and only if no fetch fails. This does not
    depend on what was reported, but only on what the engine has answered
    with. -/
theorem Continues.complete_iff {k : Course} (hk : k.Continues []) :
    k.rows = k.seen.map .ok ↔ ∀ x, .error x ∉ k.rows := by
  constructor
  · intro hrows x hx
    rw [hrows] at hx
    rcases List.mem_map.mp hx with ⟨row, -, hc⟩
    cases hc
  · intro hall
    rcases hk with hrows | ⟨-, x, rest, hrows, -⟩
    · rw [hrows, List.append_nil]
    · refine absurd ?_ (hall x)
      rw [hrows]
      exact List.mem_append_right _ List.mem_cons_self

end Course

namespace Session

/-- The course of the last execution on the cursor of a statement in a run. -/
def course (e : Engine) (id : StatementId) (cs : List Command) (s : Session) : Option Course :=
  (s.deeds e cs).foldl (Course.next e id) none

theorem course_concat (e : Engine) (id : StatementId) (cs : List Command) (c : Command)
    (s : Session) :
    s.course e id (cs ++ [c]) = Course.next e id (s.course e id cs) ⟨(s.run e cs).2, c⟩ := by
  rw [course, deeds_concat, List.foldl_append]
  rfl

end Session

/-- A step that readies the cursor has the course of what the cursor delivers:
    that of the execution that it begins with, or the one from before. -/
theorem Session.readied_course {e : Engine} {s : Session} {st : Statement} {handle : Handle}
    {c : Cursor} (ready : s.readied e st handle = .ok c) (k : Option Course)
    (hk : st.started = true → ∃ k0, k = some k0 ∧ k0.Continues handle.cursor.pending) :
    ∃ k0, (if st.requests = [] then k
        else some (Course.begun (e.execute s.past st.sql st.params))) = some k0 ∧
      k0.Continues c.pending := by
  unfold Session.readied at ready
  rcases hstarted : st.started with _ | _
  · rw [if_neg (by rw [Statement.requests, hstarted]; exact List.cons_ne_nil _ _)]
    rw [hstarted, if_neg Bool.false_ne_true] at ready
    refine ⟨_, rfl, ?_⟩
    rcases hanswer : e.execute s.past st.sql st.params with x | a
    · rw [hanswer] at ready
      cases ready
    · rw [hanswer] at ready
      rw [← Except.ok.inj ready]
      exact Course.begun_continues (.ok a)
  · rw [if_pos (by rw [Statement.requests, hstarted]; rfl)]
    rw [hstarted, if_pos rfl] at ready
    rw [← Except.ok.inj ready]
    exact hk hstarted

/-- A step keeps the course of an execution and its cursor together: a row is
    delivered and seen, the end changes nothing, and a failed fetch loses the
    rest and is reported. Other failures are reported as well, but they lose
    nothing. -/
theorem Turn.course {e : Engine} {s : Session} {st st' : Statement} {handle handle' : Handle}
    {told : Except Fault Bool} {asked : List Request}
    (turn : Turn e s st handle told asked st' handle') (k : Option Course)
    (hk : st.started = true → ∃ k0, k = some k0 ∧ k0.Continues handle.cursor.pending)
    (started : st'.started = true) :
    ∃ k0, (if asked = [] then k
        else some (Course.begun (e.execute s.past st.sql st.params))) = some k0 ∧
      (k0.told told handle'.row).Continues handle'.cursor.pending := by
  cases turn with
  | completed done =>
      rcases hk started with ⟨k0, hk0, hcont⟩
      exact ⟨k0, hk0, hcont.reported _⟩
  | refused x _ _ =>
      rcases hk started with ⟨k0, hk0, hcont⟩
      rw [Handle.failed_cursor]
      exact ⟨k0, hk0, hcont.reported _⟩
  | unexecuted x _ _ readied =>
      -- The cursor of a statement that has started is ready.
      unfold Session.readied at readied
      rw [started, if_pos rfl] at readied
      cases readied
  | ended c _ _ readied pending =>
      rcases Session.readied_course readied k hk with ⟨k0, hk0, hcont⟩
      exact ⟨k0, hk0, hcont⟩
  | arrived c row rest _ _ readied pending =>
      rcases Session.readied_course readied k hk with ⟨k0, hk0, hcont⟩
      rw [pending] at hcont
      exact ⟨k0, hk0, hcont.delivered⟩
  | failed c x rest _ _ readied pending =>
      rcases Session.readied_course readied k hk with ⟨k0, hk0, hcont⟩
      rw [pending] at hcont
      rw [Handle.failed_cursor]
      exact ⟨k0, hk0, hcont.lost⟩

/-- A step asks for one execution or for nothing. -/
theorem Turn.asked_cases {e : Engine} {s : Session} {st st' : Statement} {handle handle' : Handle}
    {told : Except Fault Bool} {asked : List Request}
    (turn : Turn e s st handle told asked st' handle') :
    asked = [] ∨ asked = [.execute st.sql st.params] := by
  have hrequests : st.requests = [] ∨ st.requests = [.execute st.sql st.params] := by
    unfold Statement.requests
    split
    · exact Or.inl rfl
    · exact Or.inr rfl
  cases turn with
  | completed _ => exact Or.inl rfl
  | refused _ _ _ => exact Or.inl rfl
  | _ => exact hrequests

namespace Deed

/-- A step begins a course if it asks the engine for an execution. -/
theorem execution?_of_turn {e : Engine} {s : Session} {id : StatementId} {st st' : Statement}
    {handle handle' : Handle} {told : Except Fault Bool} {asked : List Request} {c : Command}
    (turn : Turn e s st handle told asked st' handle')
    (found : s.statement? id = some (st, handle)) (stepped : c.stepped? = some id)
    (past : (s.perform e c).2.past = s.past ++ asked) :
    (⟨s, c⟩ : Deed).execution? e id =
      if asked = [] then none else some (e.execute s.past st.sql st.params) := by
  have hexecutes : c.executes? id st handle = some (st.sql, st.params) := by
    cases c with
    | step id' => exact if_pos (Option.some.inj stepped)
    | exec id' => exact if_pos (Option.some.inj stepped)
    | _ => cases stepped
  simp only [execution?, found, hexecutes, after, past, Option.bind_eq_bind, Option.bind_some,
    List.append_cancel_left_eq]
  rcases turn.asked_cases with rfl | rfl
  · rw [if_neg (List.cons_ne_nil _ _).symm, if_pos rfl]
  · rw [if_pos rfl, if_neg (List.cons_ne_nil _ _)]

/-- What neither moves the statement nor executes on its cursor begins no
    course. -/
theorem execution?_beside {e : Engine} {s : Session} {id : StatementId} {st : Statement}
    {handle : Handle} {c : Command} (found : s.statement? id = some (st, handle))
    (unmoved : c.moved? ≠ some id)
    (unexecuted : c = .executeHandle st.handle → (s.perform e c).2.past = s.past) :
    (⟨s, c⟩ : Deed).execution? e id = none := by
  simp only [execution?, found, Option.bind_eq_bind, Option.bind_some]
  cases c with
  | step id' =>
      have hne : id' ≠ id := fun heq => unmoved (congrArg some heq)
      simp only [Command.executes?, hne, if_false, Option.bind_none]
  | exec id' =>
      have hne : id' ≠ id := fun heq => unmoved (congrArg some heq)
      simp only [Command.executes?, hne, if_false, Option.bind_none]
  | executeHandle h =>
      by_cases heq : h = st.handle
      · -- The engine was not asked, since the past is the same.
        simp only [Command.executes?, heq, if_true, Option.bind_some, after]
        rw [heq] at unexecuted
        rw [unexecuted rfl, if_neg]
        exact fun hc => absurd (congrArg List.length hc) (by simp)
      · simp only [Command.executes?, heq, if_false, Option.bind_none]
  | _ => rfl

theorem execution?_direct {e : Engine} {s : Session} {id : StatementId} {st : Statement}
    {handle : Handle} {c : Command} (found : s.statement? id = some (st, handle))
    (command : c = .executeHandle st.handle)
    (past : (s.perform e c).2.past = s.past ++ [.execute handle.sql .empty]) :
    (⟨s, c⟩ : Deed).execution? e id = some (e.execute s.past handle.sql .empty) := by
  simp only [execution?, found, Option.bind_eq_bind, Option.bind_some, after, past]
  rw [command]
  simp only [Command.executes?, if_true, Option.bind_some]

/-- A step that reports completion has come to the end of the result. -/
theorem completes_of_told (e : Engine) (s : Session) (c : Command) (id : StatementId)
    (stepped : c.stepped? = some id) (told : Except Fault Bool) (handle : Handle)
    (reported : (s.perform e c).1.answer = c.told told handle)
    (completes : (⟨s, c⟩ : Deed).completes e = true) : told = .ok false := by
  unfold Deed.completes answer at completes
  rw [reported] at completes
  -- An `exec` that is told a row reports it as unexpected, so it does not
  -- report completion either.
  cases c with
  | step id' =>
      rcases told with f | more
      · exact Bool.noConfusion completes
      · cases more with
        | true => exact Bool.noConfusion completes
        | false => rfl
  | exec id' =>
      rcases told with f | more
      · exact Bool.noConfusion completes
      · cases more with
        | true => exact Bool.noConfusion completes
        | false => rfl
  | _ => cases stepped

/-- What a deed adds to a course is what its step was told. A run without rows
    reports a row as an unexpected one, but no step is ever told that. -/
theorem stepped_of_told {e : Engine} {s : Session} {id : StatementId} {c : Command}
    (stepped : c.stepped? = some id) {told : Except Fault Bool} {handle : Handle}
    (reported : (s.perform e c).1.answer = c.told told handle)
    (expected : told ≠ .error (.access .unexpectedRow)) (k : Course) :
    k.stepped e id ⟨s, c⟩ = k.told told ((s.perform e c).2.rowOf id) := by
  have hgot := gotRow_of_told e s c id stepped told handle reported expected
  unfold Course.stepped Course.told
  rcases told with f | more
  · have hno : ¬ (⟨s, c⟩ : Deed).gotRow e = true := by
      intro hc
      cases hgot.mp hc
    have hanswer : (⟨s, c⟩ : Deed).answer e = .error f := by
      rw [answer, reported]
      cases c with
      | exec id' => rfl
      | _ => rfl
    rw [if_neg hno, hanswer]
  · cases more with
    | true =>
        rw [if_pos (hgot.mpr rfl)]
        rfl
    | false =>
        -- The end of the result adds nothing to the rows, and both commands
        -- answer it with a value.
        have hno : ¬ (⟨s, c⟩ : Deed).gotRow e = true := by
          intro hc
          cases hgot.mp hc
        have hanswer : ∃ v, (⟨s, c⟩ : Deed).answer e = .ok v := by
          rw [answer, reported]
          cases c with
          | exec id' => exact ⟨_, rfl⟩
          | _ => exact ⟨_, rfl⟩
        rcases hanswer with ⟨v, hv⟩
        rw [if_neg hno, hv]

end Deed

theorem Cursor.executed_pending (c : Cursor) (answer : Except EngineError Answer) :
    (c.executed answer).pending = Answer.fetches answer := by
  cases answer with
  | error x => rfl
  | ok a => rfl

theorem Handle.Settles.pending {x y : Handle} (h : x.Settles y) :
    y.cursor.pending = x.cursor.pending := by
  cases h with
  | counted shares => rfl
  | ended finalized row closed cursor => rw [cursor]

namespace Course

/-- A step makes of a course what it reports, after the execution that it begins
    with. -/
theorem next_of_turn {e : Engine} {s : Session} {id : StatementId} {st st' : Statement}
    {handle handle' : Handle} {told : Except Fault Bool} {asked : List Request} {c : Command}
    (turn : Turn e s st handle told asked st' handle')
    (found : s.statement? id = some (st, handle)) (stepped : c.stepped? = some id)
    (past : (s.perform e c).2.past = s.past ++ asked)
    (found' : (s.perform e c).2.statement? id = some (st', handle'))
    (reported : (s.perform e c).1.answer = c.told told handle') (k : Option Course) :
    next e id k ⟨s, c⟩ =
      (if asked = [] then k
        else some (begun (e.execute s.past st.sql st.params))).map (·.told told handle'.row) := by
  have htold : Course.stepped e id ⟨s, c⟩ = (·.told told handle'.row) := by
    funext k
    rw [Deed.stepped_of_told stepped reported turn.not_unexpected k, Session.rowOf_found found']
  unfold next
  rw [Deed.execution?_of_turn turn found stepped past, if_pos stepped, htold]
  by_cases hasked : asked = []
  · rw [if_pos hasked, if_pos hasked]
  · rw [if_neg hasked, if_neg hasked]

/-- A deed that neither steps the statement nor executes its cursor is no part
    of its course. -/
theorem next_beside {e : Engine} {id : StatementId} {d : Deed} (k : Option Course)
    (unstepped : d.command.stepped? ≠ some id) (unexecuted : d.execution? e id = none) :
    next e id k d = k := by
  unfold next
  rw [unexecuted, if_neg unstepped]

end Course

namespace Session

/-- In every run the course of the last execution goes on with what the cursor
    of the statement still delivers, if the statement has started and is open.
    The induction takes the last command off, since a course is made of all that
    went before; in its step there is one case for each kind of passage. -/
theorem course_continues (e : Engine) (path : Text) (config : Config) (here : Path)
    (cs : List Command) (id : StatementId) (st : Statement) (handle : Handle)
    (found : ((start path config here).run e cs).2.statement? id = some (st, handle))
    (holding : st.holding = true) (started : st.started = true) :
    ∃ k, (start path config here).course e id cs = some k ∧
      k.Continues handle.cursor.pending := by
  induction cs using List.reverseRecOn generalizing st handle with
  | nil => cases found
  | append_singleton cs c ih =>
      have hreach := reachable_run e (fun _ => True) cs _ (.start path config here)
        (fun _ _ => trivial)
      rw [run_concat] at found
      rw [course_concat]
      generalize ((start path config here).run e cs).2 = s at *
      generalize (start path config here).course e id cs = k at *
      have passage := perform_passage e c s (reachable_separate e _ s hreach) id st handle found
      cases passage with
      -- Neither a new statement nor one that was reset has started, and that of
      -- a query is closed.
      | prepared connection h sql params unmade => exact Bool.noConfusion started
      | queried connection h sql params u unmade turn rests settles closed =>
          rw [closed] at holding
          exact Bool.noConfusion holding
      | @beside x _ y _ hxy unmoved unexecuted rests settles =>
          rw [Course.next_beside k (fun hc => unmoved (c.moved_of_stepped id hc))
            (Deed.execution?_beside hxy unmoved unexecuted), settles.pending]
          exact ih x y hxy (rests.closed holding) (by rw [← rests.started]; exact started)
      | rejected hxy moved closed same reported =>
          rw [closed] at holding
          exact Bool.noConfusion holding
      | @turned told asked x _ y _ hxy hx stepped turn past reported =>
          rw [Course.next_of_turn turn hxy stepped past found reported]
          -- Before the turn the course is known only if the statement had
          -- started, and if it had not the turn begins another one.
          rcases turn.course k (ih x y hxy hx) started with ⟨k0, hk0, hcont⟩
          rw [hk0]
          exact ⟨_, rfl, hcont⟩
      | @reset x y params hxy hx command reported => exact Bool.noConfusion started
      | @executed x y hxy command past =>
          -- A direct execution begins a course like any other.
          have hanswer := Deed.execution?_direct hxy command past
          have unstepped : c.stepped? ≠ some id := by
            rw [command]
            intro hc
            cases hc
          unfold Course.next
          rw [hanswer, if_neg unstepped]
          refine ⟨_, rfl, ?_⟩
          rw [Cursor.executed_pending]
          exact Course.begun_continues _
      | @rowSet x y row hxy command =>
          have unmoved : c.moved? ≠ some id := by
            rw [command]
            intro hc
            cases hc
          have hdirect : c = .executeHandle st.handle → (s.perform e c).2.past = s.past := by
            rw [command]
            intro hc
            cases hc
          rw [Course.next_beside k (fun hc => unmoved (c.moved_of_stepped id hc))
            (Deed.execution?_beside hxy unmoved hdirect)]
          exact ih st y hxy holding started

/-- Nothing but an open statement reports completion. -/
theorem completes_open (e : Engine) (s : Session) (hs : s.Separate) (c : Command)
    (id : StatementId) (stepped : c.stepped? = some id)
    (completes : (⟨s, c⟩ : Deed).completes e = true) :
    ∃ st handle, s.statement? id = some (st, handle) ∧ st.holding = true := by
  -- An error is no completion.
  have refused : ∀ f, (s.perform e c).1.answer = .error f → False := by
    intro f hf
    unfold Deed.completes Deed.answer at completes
    rw [hf] at completes
    cases c with
    | _ => exact Bool.noConfusion completes
  rcases hst : s.statements[id]? with _ | st
  · -- There is no statement to step.
    refine (refused .noObject ?_).elim
    cases c with
    | step id' =>
        rw [show id' = id from Option.some.inj stepped]
        simp only [perform, plainly_answer, step, hst, Except.map]
    | exec id' =>
        rw [show id' = id from Option.some.inj stepped]
        simp only [perform, plainly_answer, exec, step, hst, Except.map]
    | _ => cases stepped
  · rcases hs.found s id st hst with ⟨handle, found⟩
    rcases holding : st.holding with _ | _
    · exact (refused _ (perform_closed e c s id st hst (c.moved_of_stepped id stepped)
        holding).2).elim
    · exact ⟨st, handle, found, holding⟩

/-- What a reported completion says, in every run and of every statement: of the
    last execution on its cursor the rows were made current in order, either all
    of them or those up to a fetch that failed, and then that failure was
    reported. So it is a complete result if and only if no fetch of the
    execution fails.

    At a completion the cursor has nothing left. The two cases are the two ways
    in which that can have come about, and the flags of the statement do not
    tell them apart. -/
theorem completion_accounted (e : Engine) (path : Text) (config : Config) (here : Path)
    (cs : List Command) (id : StatementId) (c : Command) (stepped : c.stepped? = some id)
    (completes : (⟨((start path config here).run e cs).2, c⟩ : Deed).completes e = true) :
    ∃ k, (start path config here).course e id (cs ++ [c]) = some k ∧
      (k.rows = k.seen.map .ok ∨
        ∃ x rest, k.rows = k.seen.map .ok ++ .error x :: rest ∧ .ofEngine x ∈ k.faults) ∧
      (k.rows = k.seen.map .ok ↔ ∀ x, .error x ∉ k.rows) := by
  have separate := reachable_separate e (fun _ => True) _
    (reachable_run e _ cs _ (.start path config here) (fun _ _ => trivial))
  rcases completes_open e _ separate c id stepped completes with ⟨st, handle, found, holding⟩
  rcases perform_turn e c _ id st handle found holding stepped with
    ⟨told, asked, st', handle', turn, stands, reported⟩
  have htold := Deed.completes_of_told e _ c id stepped told handle' reported completes
  have hst' : st'.holding = true := turn.statement_kept.2.2.2.trans holding
  -- The step has come to the end of the result, so nothing is left of the
  -- course.
  have hend : st'.started = true ∧ handle'.cursor.pending = [] := by
    rw [htold] at turn
    cases turn with
    | ended c _ _ _ pending => exact ⟨rfl, pending⟩
  have found' := stands.found
  rw [← run_concat] at found'
  rcases course_continues e path config here (cs ++ [c]) id st' handle' found' hst' hend.1 with
    ⟨k, hk, hcont⟩
  rw [hend.2] at hcont
  refine ⟨k, hk, ?_, hcont.complete_iff⟩
  rcases hcont with hrows | ⟨-, hlost⟩
  · rw [List.append_nil] at hrows
    exact Or.inl hrows
  · exact Or.inr hlost

end Session

/-- An engine for which the second of three rows cannot be fetched. -/
def Engine.broken : Engine where
  connect _ _ := none
  pragma _ _ := none
  script _ _ := (0, none)
  execute _ _ _ := .ok ⟨some [[]], [.ok [.integer 7], .error ⟨.operational, [], none, none⟩,
    .ok [.integer 8]], -1, 0⟩

namespace Session

/-- A program that steps up to a failure. -/
def steppingUp : List Command := [.openDatabase, .prepare (.text []) .empty, .step 0, .step 0]

/-- The step after the failure reports the end, but the last row was never
    current. -/
theorem completion_short :
    (⟨(unopened.run .broken steppingUp).2, .step 0⟩ : Deed).completes .broken = true ∧
      ∃ k, unopened.course .broken 0 (steppingUp ++ [.step 0]) = some k ∧
        k.seen = [[.integer 7]] ∧ .ok [.integer 8] ∈ k.rows := by
  refine ⟨rfl, _, rfl, rfl, ?_⟩
  exact List.mem_cons_of_mem _ (List.mem_cons_of_mem _ List.mem_cons_self)

/-- The failure was reported. -/
theorem completion_accounted_steppingUp :
    (⟨(unopened.run .broken steppingUp).2, .step 0⟩ : Deed).completes .broken = true ∧
      ∃ k x rest, unopened.course .broken 0 (steppingUp ++ [.step 0]) = some k ∧
        k.rows = k.seen.map .ok ++ .error x :: rest ∧ .ofEngine x ∈ k.faults := by
  rcases completion_accounted .broken [] .standard ⟨.root, []⟩ steppingUp 0 (.step 0) rfl rfl with
    ⟨k, hk, hcases, hiff⟩
  have hrows : k.rows ≠ k.seen.map .ok := by
    intro hc
    rw [← Option.some.inj hk] at hc
    cases hc
  rcases hcases with hall | ⟨x, rest, hlost, hx⟩
  · exact absurd hall hrows
  · exact ⟨rfl, k, x, rest, hk, hlost, hx⟩

end Session

end RowScope
