import RowScope.Proofs.Session.Calls
import RowScope.Proofs.Session.Completion

/-!
# Discipline

The order in which a statement uses the engine. What happens to a statement in a
run is the list of its *acts*: when it was made, reset or closed, when a step
has reported completion, and between these whatever was executed on its cursor
or fetched from it. The acts are read off the run and not off the flags of the
statement. The calls are those that were recorded, whoever made them, and
whether an execution has succeeded is a matter of what the engine has answered.

The discipline says what may stand before an execution or a fetch. An execution
comes first, it uses what was set last, and no other one follows it once it has
succeeded, until the next beginning. A fetch comes only after that. And neither
comes once the statement is closed or has reported completion. Executions by the
handle are not those of the statement, and are left out.

## Main definitions

* `Act`: What happens to a statement.
* `Deed.acts`, `Session.acts`: The acts in a deed, and in a run.
* `sinceBeginning`, `inForce`: What to look back on, the acts since the last
  beginning and what was set last.
* `Obeys`, `Disciplined`: The discipline, for one act and for all.
* `Tells`: The flags of a statement are what its acts say.

## Theorems

* `Tells.turn`: A step obeys the discipline, and keeps flags and acts together.
* `acts_prepared`, `acts_queried`, `acts_unmoved`, `acts_rejected`,
  `acts_reset`, `acts_stepped`: The acts in a deed, by what it is to the
  statement.
* `accounts_perform`: Every deed obeys the discipline, and keeps flags and acts
  together.
* `calls_disciplined`: The discipline, and who is behind a call.
-/

namespace RowScope

/-- What happens to a statement, as far as it matters for the use of the
    engine. -/
inductive Act
  | made (sql : Sql) (params : Params)
  /-- A reset was accepted. -/
  | reset (params : Option Params)
  | executed (sql : Sql) (params : Params) (succeeded : Bool)
  | fetched
  /-- A step has reported completion. -/
  | completed
  | closed
deriving DecidableEq

namespace Act

/-- From here on the statement runs anew. -/
def begins : Act → Bool
  | made _ _ => true
  | reset _ => true
  | _ => false

/-- An execution that has succeeded. -/
def succeeds : Act → Bool
  | executed _ _ succeeded => succeeded
  | _ => false

end Act

/-- The acts since the last beginning. -/
def sinceBeginning (acts : List Act) : List Act :=
  acts.foldl (fun since a => if a.begins then [] else since ++ [a]) []

/-- The SQL and the parameters that were set last. -/
def inForce (acts : List Act) : Option (Sql × Params) :=
  acts.foldl (fun force a => match a with
    | .made sql params => some (sql, params)
    | .reset params => force.map fun p => (p.1, params.getD p.2)
    | _ => force) none

/-- What may stand before an act. -/
def Obeys (before : List Act) : Act → Prop
  | .executed sql params _ =>
      inForce before = some (sql, params) ∧ .closed ∉ before ∧
        .completed ∉ sinceBeginning before ∧ ∀ a ∈ sinceBeginning before, a.succeeds = false
  | .fetched =>
      .closed ∉ before ∧ .completed ∉ sinceBeginning before ∧
        ∃ a ∈ sinceBeginning before, a.succeeds = true
  | _ => True

/-- Every act obeys what stands before it. -/
def Disciplined (acts : List Act) : Prop :=
  ∀ before a after, acts = before ++ a :: after → Obeys before a

namespace Deed

/-- What a deed has called. -/
def issued (e : Engine) (d : Deed) : List Call :=
  (d.after e).calls.drop d.before.calls.length

/-- The engine was asked for an execution, and has answered. -/
def succeeds (e : Engine) (sql : Sql) (params : Params) (d : Deed) : Bool :=
  decide ((d.after e).past = d.before.past ++ [.execute sql params]) &&
    (e.execute d.before.past sql params).isOk

/-- A call as an act on a handle. -/
def actOn (e : Engine) (h : HandleId) (d : Deed) : Call → Option Act
  | .execute h' sql params =>
      if h' = h then some (.executed sql params (d.succeeds e sql params)) else none
  | .fetch h' => if h' = h then some .fetched else none
  | _ => none

/-- What a deed does with the cursor of a handle, unless it was a direct
    execution. -/
def used (e : Engine) (h : HandleId) (d : Deed) : List Act :=
  match d.command with
  | .executeHandle _ => []
  | _ => (d.issued e).filterMap (d.actOn e h)

/-- A deed makes the statement, or takes it back to its beginning. -/
def beginning (e : Engine) (id : StatementId) (d : Deed) : List Act :=
  match d.before.statements[id]? with
  | none => (d.command.prepared?.map fun p => Act.made p.1 p.2).toList
  | some _ => match d.command, d.answer e with
    | .reset id' params, .ok _ => if id' = id then [.reset params] else []
    | _, _ => []

/-- A deed closes the statement; one that a query has made is closed with it. -/
def closes (id : StatementId) (d : Deed) : Bool :=
  d.command.closed? == some id || (d.before.statements[id]?.isNone && d.command.queries)

/-- A deed reports completion, or closes the statement. -/
def ending (e : Engine) (id : StatementId) (d : Deed) : List Act :=
  (if d.command.stepped? == some id && d.completes e then [.completed] else []) ++
    if d.closes id then [.closed] else []

/-- The acts in a deed, if the statement is there after it. -/
def acts (e : Engine) (id : StatementId) (d : Deed) : List Act :=
  match (d.after e).statements[id]? with
  | none => []
  | some st => d.beginning e id ++ d.used e st.handle ++ d.ending e id

end Deed

/-- The acts in a run. -/
def Session.acts (e : Engine) (id : StatementId) (cs : List Command) (s : Session) : List Act :=
  (s.deeds e cs).flatMap (Deed.acts e id)

theorem Session.acts_concat (e : Engine) (id : StatementId) (cs : List Command) (c : Command)
    (s : Session) :
    s.acts e id (cs ++ [c]) = s.acts e id cs ++ Deed.acts e id ⟨(s.run e cs).2, c⟩ := by
  rw [acts, deeds_concat, List.flatMap_append, List.flatMap_singleton]
  rfl

/-! ### Looking back -/

/-- To look back from one act further on: a beginning leaves nothing to look
    back on, and any other act is one more. -/
theorem sinceBeginning_concat (acts : List Act) (a : Act) :
    sinceBeginning (acts ++ [a]) = if a.begins then [] else sinceBeginning acts ++ [a] := by
  rw [sinceBeginning, List.foldl_append]
  rfl

theorem inForce_concat (acts : List Act) (a : Act) (ha : a.begins = false) :
    inForce (acts ++ [a]) = inForce acts := by
  rw [inForce, List.foldl_append]
  cases a with
  | made sql params => cases ha
  | reset params => cases ha
  | _ => rfl

theorem disciplined_nil : Disciplined [] := by
  intro before a after h
  exact absurd h (by simp)

/-- One more act is disciplined if it obeys what was there. The acts before it
    had only earlier ones to obey, which are the same. -/
theorem Disciplined.concat {acts : List Act} (h : Disciplined acts) {a : Act} (ha : Obeys acts a) :
    Disciplined (acts ++ [a]) := by
  intro before b after heq
  rcases List.eq_nil_or_concat after with rfl | ⟨rest, last, rfl⟩
  · rcases List.append_inj' heq rfl with ⟨rfl, hlast⟩
    rw [← (List.cons.inj hlast).1]
    exact ha
  · -- The act in question was there before.
    rw [List.concat_eq_append, ← List.cons_append, ← List.append_assoc] at heq
    exact h before b rest (List.append_inj' heq rfl).1

/-! ### Flags and acts -/

/-- The flags of a statement are what its acts say. -/
structure Tells (acts : List Act) (st : Statement) : Prop where
  force : inForce acts = some (st.sql, st.params)
  started : st.started = true ↔ ∃ a ∈ sinceBeginning acts, a.succeeds = true
  done : .completed ∈ sinceBeginning acts → st.done = true
  closed : .closed ∈ acts → st.holding = false

namespace Tells

variable {acts : List Act} {st : Statement}

/-- A new statement has run nothing, and its SQL and parameters are those that
    it was made with. -/
theorem made (h : HandleId) (sql : Sql) (params : Params) :
    Tells [.made sql params] (.fresh h sql params) where
  force := rfl
  started := ⟨fun hc => Bool.noConfusion hc, fun ⟨_, ha, _⟩ => absurd ha List.not_mem_nil⟩
  done hc := absurd hc List.not_mem_nil
  closed hc := nomatch List.mem_singleton.mp hc

/-- A reset takes the flags back to the beginning, and so leaves nothing to look
    back on. The SQL stays in force, with new parameters if there are any. -/
theorem reset (ht : Tells acts st) (params : Option Params) :
    Tells (acts ++ [.reset params]) (st.restarted params) := by
  have hsince : sinceBeginning (acts ++ [.reset params]) = [] := sinceBeginning_concat acts _
  refine ⟨?_, ?_, ?_, fun hc => ?_⟩
  · rw [inForce, List.foldl_append, ← inForce, ht.force]
    rfl
  · rw [hsince]
    exact ⟨fun hc => Bool.noConfusion hc, fun ⟨_, ha, _⟩ => absurd ha List.not_mem_nil⟩
  · rw [hsince]
    exact fun hc => absurd hc List.not_mem_nil
  · rcases List.mem_append.mp hc with hold | hnew
    · exact ht.closed hold
    · cases List.mem_singleton.mp hnew

/-- An act that begins nothing is one more to look back on. -/
theorem concat (ht : Tells acts st) {a : Act} (ha : a.begins = false) (st' : Statement)
    (sql : st'.sql = st.sql) (params : st'.params = st.params)
    (started : st'.started = true ↔ st.started = true ∨ a.succeeds = true)
    (done : st.done = true ∨ .completed = a → st'.done = true)
    (closed : st.holding = false ∨ .closed = a → st'.holding = false) :
    Tells (acts ++ [a]) st' := by
  have hsince : sinceBeginning (acts ++ [a]) = sinceBeginning acts ++ [a] := by
    rw [sinceBeginning_concat, ha]
    rfl
  refine ⟨?_, ?_, fun hc => ?_, fun hc => ?_⟩
  · rw [inForce_concat acts a ha, ht.force, sql, params]
  · rw [started, ht.started, hsince]
    simp only [List.mem_append, List.mem_singleton, or_and_right, exists_or, exists_eq_left]
  · rw [hsince] at hc
    rcases List.mem_append.mp hc with hold | hnew
    · exact done (Or.inl (ht.done hold))
    · exact done (Or.inr (List.mem_singleton.mp hnew))
  · rcases List.mem_append.mp hc with hold | hnew
    · exact closed (Or.inl (ht.closed hold))
    · exact closed (Or.inr (List.mem_singleton.mp hnew))

theorem executed (ht : Tells acts st) (unstarted : st.started = false) (ok : Bool) :
    Tells (acts ++ [.executed st.sql st.params ok]) { st with started := ok } := by
  refine ht.concat rfl _ rfl rfl ?_ (fun hc => ?_) (fun hc => ?_)
  · rw [unstarted]
    exact ⟨Or.inr, fun hc => hc.resolve_left Bool.noConfusion⟩
  · exact hc.resolve_right (fun h => nomatch h)
  · exact hc.resolve_right (fun h => nomatch h)

theorem fetched (ht : Tells acts st) : Tells (acts ++ [.fetched]) st := by
  refine ht.concat rfl st rfl rfl ?_ (fun hc => ?_) (fun hc => ?_)
  · exact ⟨Or.inl, fun hc => hc.resolve_right (fun h => Bool.noConfusion h)⟩
  · exact hc.resolve_right (fun h => nomatch h)
  · exact hc.resolve_right (fun h => nomatch h)

theorem completed (ht : Tells acts st) (hdone : st.done = true) :
    Tells (acts ++ [.completed]) st := by
  refine ht.concat rfl st rfl rfl ?_ (fun _ => hdone) (fun hc => ?_)
  · exact ⟨Or.inl, fun hc => hc.resolve_right (fun h => Bool.noConfusion h)⟩
  · exact hc.resolve_right (fun h => nomatch h)

/-- A statement that was not stepped has the same acts, unless it was closed. -/
theorem rests (ht : Tells acts st) {st' : Statement} (hrests : st.Rests st') : Tells acts st' where
  force := by rw [ht.force, hrests.sql, hrests.params]
  started := by rw [hrests.started, ht.started]
  done hc := by rw [hrests.done, ht.done hc]
  closed hc := by
    rcases hheld : st'.holding with _ | _
    · rfl
    · have hopen := hrests.closed hheld
      rw [ht.closed hc] at hopen
      exact Bool.noConfusion hopen

theorem closing (ht : Tells acts st) (hclosed : st.holding = false) :
    Tells (acts ++ [.closed]) st := by
  refine ht.concat rfl st rfl rfl ?_ (fun hc => ?_) (fun _ => hclosed)
  · exact ⟨Or.inl, fun hc => hc.resolve_right (fun h => Bool.noConfusion h)⟩
  · exact hc.resolve_right (fun h => nomatch h)

/-- A statement may be done without having reported it. -/
theorem ended (ht : Tells acts st) (undone : st.done = false) (done : Bool) :
    Tells acts { st with done := done } where
  force := ht.force
  started := ht.started
  done hc := by
    rw [ht.done hc] at undone
    exact Bool.noConfusion undone
  closed := ht.closed

/-! ### Steps -/

/-- A statement that is open, not done and not started may be executed: no
    execution has succeeded since the beginning, or it would have started. -/
theorem mayExecute (ht : Tells acts st) (holding : st.holding = true) (undone : st.done = false)
    (unstarted : st.started = false) (ok : Bool) :
    Obeys acts (.executed st.sql st.params ok) := by
  refine ⟨ht.force, fun hc => ?_, fun hc => ?_, fun a ha => ?_⟩
  · rw [ht.closed hc] at holding
    exact Bool.noConfusion holding
  · rw [ht.done hc] at undone
    exact Bool.noConfusion undone
  · rcases hs : a.succeeds with _ | _
    · rfl
    · rw [ht.started.mpr ⟨a, ha, hs⟩] at unstarted
      exact Bool.noConfusion unstarted

/-- A statement that is open, not done and started may be fetched from, an
    execution having succeeded since the beginning. -/
theorem mayFetch (ht : Tells acts st) (holding : st.holding = true) (undone : st.done = false)
    (started : st.started = true) : Obeys acts .fetched := by
  refine ⟨fun hc => ?_, fun hc => ?_, ht.started.mp started⟩
  · rw [ht.closed hc] at holding
    exact Bool.noConfusion holding
  · rw [ht.done hc] at undone
    exact Bool.noConfusion undone

end Tells

/-- What a step does, by whether it gets to its fetch. -/
def Statement.turnActs (st : Statement) (begun : Bool) : List Act :=
  if st.done then []
  else (if st.started then [] else [.executed st.sql st.params begun]) ++
    if begun then [.fetched] else []

theorem Statement.turnActs_undone (st : Statement) (undone : st.done = false) (begun : Bool) :
    st.turnActs begun = (if st.started then [] else [.executed st.sql st.params begun]) ++
      if begun then [.fetched] else [] := by
  rw [turnActs, undone, if_neg Bool.false_ne_true]

/-- A step of an open statement is disciplined, and leaves the statement as its
    acts say. Its acts are an execution, unless the statement has started, and a
    fetch if it gets so far; the flags that the source looks at are the ones
    that tell what may stand before either. -/
theorem Tells.turn {acts : List Act} {st : Statement} (ht : Tells acts st)
    (hd : Disciplined acts) (holding : st.holding = true) (undone : st.done = false) (begun : Bool)
    (hbegun : st.started = true → begun = true) :
    Tells (acts ++ st.turnActs begun) { st with started := begun } ∧
      Disciplined (acts ++ st.turnActs begun) := by
  -- After the execution, if there is one, there is still the fetch.
  have fetch : ∀ {more : List Act} {x : Statement}, Tells more x → Disciplined more →
      x.holding = true → x.done = false → x.started = begun →
      Tells (more ++ if begun then [.fetched] else []) x ∧
        Disciplined (more ++ if begun then [.fetched] else []) := by
    intro more x hx hmore hholding hundone hsame
    rcases begun with _ | _
    · rw [if_neg Bool.false_ne_true, List.append_nil]
      exact ⟨hx, hmore⟩
    · rw [if_pos rfl]
      exact ⟨hx.fetched, hmore.concat (hx.mayFetch hholding hundone hsame)⟩
  rw [st.turnActs_undone undone]
  rcases hstarted : st.started with _ | _
  · rw [if_neg Bool.false_ne_true, ← List.append_assoc]
    exact fetch (ht.executed hstarted begun)
      (hd.concat (ht.mayExecute holding undone hstarted begun)) holding undone rfl
  · -- A statement that has started gets to its fetch without an execution, and
    -- stays as it is.
    have hsame : ({ st with started := begun } : Statement) = st := by
      rw [hbegun hstarted, ← hstarted]
    rw [if_pos rfl, List.nil_append, hsame]
    exact fetch ht hd holding undone (hstarted.trans (hbegun hstarted).symm)

/-! ### What a step has done -/

/-- A cursor that can be used is readied if and only if the step gets to its
    fetch. -/
theorem Session.begins_eq (e : Engine) (s : Session) (st : Statement) (handle : Handle)
    (usable : s.refusal? handle = none) :
    s.begins e st handle = (s.readied e st handle).isOk := by
  rw [begins, readied, usable]
  rcases st.started with _ | _
  · rcases e.execute s.past st.sql st.params with x | a
    · rfl
    · rfl
  · rfl

section

variable {e : Engine} {s : Session} {st st' : Statement} {handle handle' : Handle}
  {told : Except Fault Bool} {asked : List Request}

/-- What a step does to the flags of a statement that is not done. It has
    started if the step got to its fetch, also if this has failed, and it may be
    done. -/
theorem Turn.flags (turn : Turn e s st handle told asked st' handle') (undone : st.done = false) :
    ∃ done, st' = { st with started := s.begins e st handle, done := done } ∧
      (told = .ok false → done = true) := by
  cases turn with
  | completed done =>
      rw [done] at undone
      exact Bool.noConfusion undone
  | refused x _ refusal =>
      refine ⟨st.done, ?_, fun hc => by cases hc⟩
      rw [Session.begins, refusal, Option.isNone_some, Bool.false_and, Bool.or_false]
  | unexecuted x _ usable readied =>
      have hbegins := s.begins_eq e st handle usable
      -- Readying can fail only by an execution, and a statement that has
      -- started is not executed.
      have hunstarted : st.started = false := by
        rcases hstarted : st.started with _ | _
        · rfl
        · rw [Session.readied, hstarted, if_pos rfl] at readied
          cases readied
      refine ⟨st.done, ?_, fun hc => by cases hc⟩
      rw [hbegins, readied, show (Except.error x : Except EngineError Cursor).isOk = st.started
        from hunstarted.symm]
  | ended c _ usable readied pending =>
      refine ⟨true, ?_, fun _ => rfl⟩
      rw [s.begins_eq e st handle usable, readied]
      rfl
  | arrived c row rest _ usable readied pending =>
      refine ⟨st.done, ?_, fun hc => by cases hc⟩
      rw [s.begins_eq e st handle usable, readied]
      rfl
  | failed c x rest _ usable readied pending =>
      refine ⟨st.done, ?_, fun hc => by cases hc⟩
      rw [s.begins_eq e st handle usable, readied]
      rfl

/-- A statement that is done stays as it is. -/
theorem Turn.of_done (turn : Turn e s st handle told asked st' handle') (done : st.done = true) :
    told = .error (.access .completed) ∧ st' = st := by
  cases turn with
  | completed _ => exact ⟨rfl, rfl⟩
  | refused _ undone _ => exact Bool.noConfusion (undone.symm.trans done)
  | unexecuted _ undone _ _ => exact Bool.noConfusion (undone.symm.trans done)
  | ended _ undone _ _ _ => exact Bool.noConfusion (undone.symm.trans done)
  | arrived _ _ _ undone _ _ _ => exact Bool.noConfusion (undone.symm.trans done)
  | failed _ _ _ undone _ _ _ => exact Bool.noConfusion (undone.symm.trans done)

/-- Whether the execution of a step has succeeded shows in what the engine was
    asked. A cursor that refuses does not ask the engine, and otherwise the step
    gets to its fetch just if the engine's answer is a result. -/
theorem Turn.succeeds (turn : Turn e s st handle told asked st' handle') (undone : st.done = false)
    (unstarted : st.started = false) (d : Deed) (before : d.before.past = s.past)
    (after : (d.after e).past = s.past ++ asked) :
    d.succeeds e st.sql st.params = s.begins e st handle := by
  have hrequests : st.requests = [.execute st.sql st.params] := by
    rw [Statement.requests, unstarted]
    rfl
  have hexecuted : asked = [.execute st.sql st.params] → s.refusal? handle = none →
      d.succeeds e st.sql st.params = s.begins e st handle := by
    intro hasked usable
    rw [Deed.succeeds, before, after, hasked, decide_eq_true rfl, Session.begins, unstarted, usable]
    rfl
  cases turn with
  | completed done =>
      rw [done] at undone
      exact Bool.noConfusion undone
  | refused x _ refusal =>
      -- Nothing was asked, so the past has not grown by the execution.
      have hunasked : s.past ++ [] ≠ s.past ++ [.execute st.sql st.params] := fun hc =>
        List.cons_ne_nil _ _ (List.append_cancel_left hc).symm
      rw [Deed.succeeds, before, after, decide_eq_false hunasked, Session.begins, unstarted,
        refusal]
      rfl
  | unexecuted x _ usable _ => exact hexecuted hrequests usable
  | ended c _ usable _ _ => exact hexecuted hrequests usable
  | arrived c row rest _ usable _ _ => exact hexecuted hrequests usable
  | failed c x rest _ usable _ _ => exact hexecuted hrequests usable

end

namespace Deed

theorem issued_eq {e : Engine} {d : Deed} {more : List Call}
    (h : (d.after e).calls = d.before.calls ++ more) : d.issued e = more := by
  rw [issued, h, List.drop_left]

/-- Calls on no cursor, or on another one, are no acts on a handle. -/
theorem acts_elsewhere (e : Engine) (h : HandleId) (d : Deed) (calls : List Call)
    (elsewhere : ∀ k ∈ calls, k.cursor? ≠ some h) : calls.filterMap (d.actOn e h) = [] := by
  rw [List.filterMap_eq_nil_iff]
  intro k hk
  have hne := elsewhere k hk
  cases k with
  | execute h' sql params => exact if_neg (fun heq => hne (congrArg some heq))
  | fetch h' => exact if_neg (fun heq => hne (congrArg some heq))
  | _ => rfl

theorem acts_quiet (e : Engine) (h : HandleId) (d : Deed) (calls : List Call)
    (quiet : ∀ k ∈ calls, k.cursor? = none) : calls.filterMap (d.actOn e h) = [] := by
  refine acts_elsewhere e h d calls (fun k hk hcursor => ?_)
  rw [quiet k hk] at hcursor
  cases hcursor

/-- The calls of a step are its acts: of an execution it is known in addition
    whether it has succeeded. -/
theorem acts_turn (e : Engine) (d : Deed) (st : Statement) (begun : Bool)
    (hsucceeds : st.done = false → st.started = false →
      d.succeeds e st.sql st.params = begun) :
    (st.turnCalls begun).filterMap (d.actOn e st.handle) = st.turnActs begun := by
  unfold Statement.turnCalls Statement.turnActs
  rcases hdone : st.done with _ | _
  · rw [if_neg Bool.false_ne_true, if_neg Bool.false_ne_true, List.filterMap_append]
    congr 1
    · rcases hstarted : st.started with _ | _
      · simp only [Bool.false_eq_true, if_false, List.filterMap_cons, List.filterMap_nil, actOn,
          if_true, hsucceeds hdone hstarted]
      · rfl
    · rcases begun with _ | _
      · rfl
      · simp only [if_true, List.filterMap_cons, List.filterMap_nil, actOn]
  · rfl

/-- Unless the handle was executed directly, what a deed does with a cursor are
    its calls on the cursor. -/
theorem used_eq {e : Engine} {d : Deed} {h : HandleId}
    (indirect : ∀ h', d.command ≠ .executeHandle h') :
    d.used e h = (d.issued e).filterMap (d.actOn e h) := by
  unfold used
  split
  · rename_i h' hc
    exact absurd hc (indirect h')
  · rfl

/-- A quiet deed makes no use of any cursor. -/
theorem used_quiet {e : Engine} {d : Deed} (h : HandleId)
    (quiet : d.before.Quietly (d.after e)) : d.used e h = [] := by
  rcases quiet with ⟨more, hmore, hnone⟩
  unfold used
  split
  · rfl
  · rw [issued_eq hmore]
    exact acts_quiet e h d more hnone

/-- A command that moves a statement does not close it. -/
theorem closes_moved {s : Session} {c : Command} {id : StatementId} {st : Statement}
    (moved : c.moved? = some id) (hst : s.statements[id]? = some st) :
    closes id ⟨s, c⟩ = false := by
  unfold closes
  simp only [hst]
  cases c with
  | closeStatement _ => cases moved
  | drop _ => cases moved
  | _ => rfl

end Deed

/-- What is known of a statement in a session by its acts. -/
structure Accounts (acts : List Act) (s : Session) (id : StatementId) : Prop where
  unmade : s.statements[id]? = none → acts = []
  tells : ∀ st, s.statements[id]? = some st → Tells acts st
  disciplined : Disciplined acts

namespace Session

variable {e : Engine} {c : Command} {s : Session} {id : StatementId}

/-! ### New statements -/

/-- A statement that a program prepares is not used. Making it calls nothing, so
    it has one act. -/
theorem acts_prepared (sql : Sql) (params : Params) (unmade : s.statements[id]? = none)
    (st' : Statement) (hst' : (s.perform e (.prepare sql params)).2.statements[id]? = some st') :
    Deed.acts e id ⟨s, .prepare sql params⟩ = [.made sql params] ∧
      ∃ h, st' = .fresh h sql params := by
  have hused : ∀ h, Deed.used e h ⟨s, .prepare sql params⟩ = [] := fun h =>
    Deed.used_quiet h
      (perform_quietly e (.prepare sql params) s rfl rfl (fun _ => Command.noConfusion))
  constructor
  · simp only [Deed.acts, Deed.after, hst', hused, Deed.beginning, unmade, Command.prepared?,
      Deed.ending, Deed.closes, Command.stepped?, Command.closed?, Command.queries]
    rfl
  · simp only [perform, making_state] at hst'
    -- A refusal makes no statement, so there would be none at `id` to speak of.
    rcases hprepare : s.prepare sql params with ⟨f | id', t⟩
    · rw [hprepare, prepare_refused sql params s t f hprepare, unmade] at hst'
      cases hst'
    · rw [hprepare] at hst'
      rcases prepare_ok sql params s t id' hprepare with ⟨-, connection, rfl⟩
      rcases of_getElem?_concat _ _ _ _ hst' with ⟨-, rfl⟩ | hold
      · exact ⟨_, rfl⟩
      · rw [unmade] at hold
        cases hold

/-- A statement that a query makes is stepped once and closed, all in one deed.
    Between the step and the closing there is only the reading of a row, by
    views that come and go, so the statement is as the step has left it but for
    its share. -/
theorem acts_queried (queries : c.queries = true) (unmade : s.statements[id]? = none)
    (st' : Statement) (hst' : (s.perform e c).2.statements[id]? = some st') :
    ∃ sql params h begun done, Deed.acts e id ⟨s, c⟩ =
        .made sql params :: ((Statement.fresh h sql params).turnActs begun ++ [.closed]) ∧
      ({ Statement.fresh h sql params with started := begun, done := done } : Statement).Rests st' ∧
      st'.holding = false := by
  rcases perform_query e c s queries with ⟨sql, params, hprepared, hsame | ⟨connection, hfinish,
    hclosed⟩⟩
  · rw [hsame, unmade] at hst'
    cases hst'
  · have hfound := newStatement_found connection sql params s
    rcases step_turn e _ _ _ _ hfound rfl with ⟨asked, st, handle, turn, stands⟩
    by_cases hid : id = s.statements.length
    · subst hid
      have hst := ((statement?_eq_some_iff _ _ _ _).mp stands.found).1
      rcases hfinish.statement_rests _ False.elim st hst with ⟨x, hx, rests⟩
      obtain rfl := Option.some.inj (hst'.symm.trans hx)
      rcases turn.flags rfl with ⟨done, rfl, -⟩
      refine ⟨sql, params, s.handles.length, _, done, ?_, rests, hclosed _ hst'⟩
      -- The engine was asked by the step only, and the calls after it are on no
      -- cursor.
      have hpast : (s.perform e c).2.past = s.past ++ asked :=
        (hfinish.surroundings False.elim).1.trans stands.past
      rcases perform_query_calls e c s sql params connection hfinish with ⟨more, hcalls, hquiet⟩
      have hindirect : ∀ h, c ≠ .executeHandle h := by
        rintro h rfl
        cases queries
      have hused : Deed.used e st'.handle ⟨s, c⟩ =
          (Statement.fresh s.handles.length sql params).turnActs
            ((s.newStatement connection sql params).2.begins e
              (.fresh s.handles.length sql params) (.fresh connection sql)) := by
        rw [Deed.used_eq hindirect, Deed.issued_eq (d := ⟨s, c⟩) hcalls, List.filterMap_append,
          rests.handle, Deed.acts_quiet e _ _ more hquiet, List.append_nil]
        exact Deed.acts_turn e _ _ _ (fun _ _ => turn.succeeds rfl rfl ⟨s, c⟩ rfl hpast)
      have hstepped : c.stepped? = none := by
        cases c with
        | step id => cases queries
        | exec id => cases queries
        | _ => rfl
      simp only [Deed.acts, Deed.after, hst', hused, Deed.beginning, unmade, hprepared,
        Deed.ending, Deed.closes, hstepped, queries]
      simp
    · -- No other statement was made on the way.
      have hnone := (step_leads e s.statements.length _).statements_none False.elim id
        (newStatement_next connection sql params s id unmade hid)
      rw [hfinish.statements_none False.elim id hnone] at hst'
      cases hst'

/-- The acts of a statement that was made are disciplined, whether it was
    prepared or made by a query. No other command makes a statement. -/
theorem acts_made (unmade : s.statements[id]? = none) (st' : Statement)
    (hst' : (s.perform e c).2.statements[id]? = some st') :
    Tells (Deed.acts e id ⟨s, c⟩) st' ∧ Disciplined (Deed.acts e id ⟨s, c⟩) := by
  rcases hqueries : c.queries with _ | _
  · -- Made by a program: the statement is fresh.
    by_cases hprepares : c.prepares
    · cases c with
      | prepare sql params =>
          rcases acts_prepared sql params unmade st' hst' with ⟨hacts, h, rfl⟩
          rw [hacts]
          exact ⟨.made h sql params, disciplined_nil.concat (a := .made sql params) trivial⟩
      | queryFirst sql params => cases hqueries
      | tableExists name => cases hqueries
      | lastInsertRowid => cases hqueries
      | _ => exact False.elim hprepares
    · rw [perform_unmade e c s hprepares id unmade] at hst'
      cases hst'
  · rcases acts_queried hqueries unmade st' hst' with
      ⟨sql, params, h, begun, done, hacts, rests, hclosed⟩
    -- Made by a query, which has also stepped it and closed it before anyone
    -- saw it.
    have hmade : Disciplined [.made sql params] :=
      disciplined_nil.concat (a := .made sql params) trivial
    rcases (Tells.made h sql params).turn hmade rfl rfl begun (fun hc => Bool.noConfusion hc) with
      ⟨ht, hd⟩
    rw [hacts, ← List.singleton_append, ← List.append_assoc]
    exact ⟨((ht.ended rfl done).rests rests).closing hclosed, hd.concat trivial⟩

/-! ### Old statements -/

/-- A command that does not move a statement makes no use of its cursor, unless
    it executes it directly. Whoever is behind a call steps the statement whose
    handle it is on, or has just made it. -/
theorem used_unmoved (separate : s.Separate) (unmoved : c.moved? ≠ some id) (st st' : Statement)
    (hst : s.statements[id]? = some st) (hst' : (s.perform e c).2.statements[id]? = some st') :
    Deed.used e st'.handle ⟨s, c⟩ = [] := by
  have hleads := perform_leads e c s
  by_cases hdirect : ∃ h, c = .executeHandle h
  · rcases hdirect with ⟨h, rfl⟩
    rfl
  · rcases hleads.calls_grow with ⟨more, hmore⟩
    rw [Deed.used_eq (fun h hc => hdirect ⟨h, hc⟩), Deed.issued_eq (d := ⟨s, c⟩) hmore]
    refine Deed.acts_elsewhere e _ _ more (fun k hk hcursor => ?_)
    rcases perform_calls e c s separate more hmore k hk _ hcursor with
      hc | ⟨id', x, hx, hsame, hwho⟩
    · exact hdirect ⟨_, hc⟩
    · -- No two statements have the same handle, so the one behind the call is
      -- this one.
      have heq := (separate.leads hleads).same _ id' id x st' hx hst' hsame
      rw [heq] at hwho
      rcases hwho with hstepped | ⟨hnone, -⟩
      · exact unmoved (c.moved_of_stepped id hstepped)
      · rw [hst] at hnone
        cases hnone

/-- A command that does not move a statement closes it at most. It neither makes
    it nor resets it, makes no use of its cursor, and completes nothing. -/
theorem acts_unmoved (separate : s.Separate) (unmoved : c.moved? ≠ some id) (st st' : Statement)
    (hst : s.statements[id]? = some st) (hst' : (s.perform e c).2.statements[id]? = some st') :
    Deed.acts e id ⟨s, c⟩ = if c.closed? = some id then [.closed] else [] := by
  -- Its cursor is its own, since no other statement has the same handle.
  have hused := used_unmoved separate unmoved st st' hst hst'
  have hstepped : (c.stepped? == some id) = false := by
    rw [beq_eq_false_iff_ne]
    exact fun hc => unmoved (c.moved_of_stepped id hc)
  have hbeginning : Deed.beginning e id ⟨s, c⟩ = [] := by
    unfold Deed.beginning
    simp only [hst]
    cases c with
    | reset id' params =>
        have hne : id' ≠ id := fun heq => unmoved (congrArg some heq)
        rcases Deed.answer e ⟨s, .reset id' params⟩ with f | v
        · rfl
        · exact if_neg hne
    | _ => rfl
  simp only [Deed.acts, Deed.after, hst', hused, hbeginning, Deed.ending, hstepped, Deed.closes,
    hst, Option.isNone_some, Bool.false_and, Bool.or_false, beq_iff_eq, Bool.false_eq_true,
    if_false, List.nil_append]

theorem perform_closes (closes : c.closed? = some id) (st' : Statement)
    (hst' : (s.perform e c).2.statements[id]? = some st') : st'.holding = false := by
  cases c with
  | closeStatement id' =>
      rw [show id' = id from Option.some.inj closes] at hst'
      exact closeStatement_closed id s st' hst'
  | drop made =>
      cases made with
      | statement id' =>
          rw [show id' = id from Option.some.inj closes] at hst'
          exact closeStatement_closed id s st' hst'
      | _ => cases closes
  | _ => cases closes

/-- A statement that is closed has no acts when it is moved: the command is
    refused, nothing is called, and the answer is an error. -/
theorem acts_rejected (moved : c.moved? = some id) (st : Statement)
    (hst : s.statements[id]? = some st) (closed : st.holding = false) :
    Deed.acts e id ⟨s, c⟩ = [] := by
  rcases perform_closed e c s id st hst moved closed with ⟨hsame, hanswer⟩
  have hused : Deed.used e st.handle ⟨s, c⟩ = [] :=
    Deed.used_quiet _ (.of_same (congrArg Session.calls hsame))
  have hst' := hst
  rw [← hsame] at hst'
  -- An error is neither a beginning nor a completion.
  have hbeginning : Deed.beginning e id ⟨s, c⟩ = [] := by
    unfold Deed.beginning Deed.answer
    simp only [hst, hanswer]
  have hcompletes : Deed.completes e ⟨s, c⟩ = false := by
    unfold Deed.completes Deed.answer
    simp only [hanswer]
  have hcloses := Deed.closes_moved moved hst
  simp only [Deed.acts, Deed.after, hst', hused, hbeginning, Deed.ending, hcompletes, hcloses,
    Bool.and_false, Bool.false_eq_true, if_false, List.append_nil]

/-- A reset that is accepted is the only act in its deed. -/
theorem acts_reset (params : Option Params) (st : Statement) (handle : Handle)
    (found : s.statement? id = some (st, handle)) (holding : st.holding = true) :
    Deed.acts e id ⟨s, .reset id params⟩ = [.reset params] ∧
      (s.perform e (.reset id params)).2.statements[id]? = some (st.restarted params) := by
  rcases perform_reset e s id st handle found holding params with ⟨stands, hanswer⟩
  have hst := ((statement?_eq_some_iff _ _ _ _).mp found).1
  have hst' := ((statement?_eq_some_iff _ _ _ _).mp stands.found).1
  have hused : Deed.used e st.handle ⟨s, .reset id params⟩ = [] :=
    Deed.used_quiet _
      (perform_quietly e (.reset id params) s rfl rfl (fun _ => Command.noConfusion))
  refine ⟨?_, hst'⟩
  have hsame : (st.restarted params).handle = st.handle := rfl
  simp only [Deed.acts, Deed.after, hst', hsame, hused, Deed.beginning, hst, Deed.answer, hanswer,
    if_true, Deed.ending, Deed.closes, Command.stepped?, Command.closed?, Command.queries]
  rfl

/-- A step of an open statement has the acts of its turn, and may report
    completion. The calls of the step are known from the statement, and all of
    them are calls on its own cursor. -/
theorem acts_stepped (stepped : c.stepped? = some id) (st : Statement) (handle : Handle)
    (found : s.statement? id = some (st, handle)) (holding : st.holding = true) :
    ∃ told asked st' handle', Turn e s st handle told asked st' handle' ∧
      (s.perform e c).2.statements[id]? = some st' ∧
      (Deed.completes e ⟨s, c⟩ = true → told = .ok false) ∧
      Deed.acts e id ⟨s, c⟩ = st.turnActs (s.begins e st handle) ++
        if Deed.completes e ⟨s, c⟩ then [.completed] else [] := by
  rcases perform_turn e c s id st handle found holding stepped with
    ⟨told, asked, st', handle', turn, stands, hanswer⟩
  have hst := ((statement?_eq_some_iff _ _ _ _).mp found).1
  have hst' := ((statement?_eq_some_iff _ _ _ _).mp stands.found).1
  refine ⟨told, asked, st', handle', turn, hst',
    Deed.completes_of_told e s c id stepped told handle' hanswer, ?_⟩
  have hcalls := step_calls e s id st handle found holding
  rw [← perform_stepped e c s id stepped] at hcalls
  have hindirect : ∀ h, c ≠ .executeHandle h := by
    rintro h rfl
    cases stepped
  have hused : Deed.used e st'.handle ⟨s, c⟩ = st.turnActs (s.begins e st handle) := by
    -- Neither list of calls is looked into: the turn and the step are both
    -- described by `begins`.
    rw [Deed.used_eq hindirect, Deed.issued_eq (d := ⟨s, c⟩) hcalls, turn.statement_kept.1]
    exact Deed.acts_turn e _ _ _ (fun undone unstarted =>
      turn.succeeds undone unstarted ⟨s, c⟩ rfl stands.past)
  have hbeginning : Deed.beginning e id ⟨s, c⟩ = [] := by
    unfold Deed.beginning
    simp only [hst]
    cases c with
    | reset id' params => cases stepped
    | _ => rfl
  have hcloses := Deed.closes_moved (c.moved_of_stepped id stepped) hst
  simp only [Deed.acts, Deed.after, hst', hused, hbeginning, Deed.ending, hcloses, stepped,
    BEq.rfl, Bool.true_and, Bool.false_eq_true, if_false, List.append_nil, List.nil_append]

/-- A step of an open statement keeps its flags and its acts together, and the
    discipline. -/
theorem acts_kept_stepped (stepped : c.stepped? = some id) (acts : List Act) (st st' : Statement)
    (handle : Handle) (found : s.statement? id = some (st, handle)) (holding : st.holding = true)
    (hst' : (s.perform e c).2.statements[id]? = some st') (ht : Tells acts st)
    (hd : Disciplined acts) :
    Tells (acts ++ Deed.acts e id ⟨s, c⟩) st' ∧ Disciplined (acts ++ Deed.acts e id ⟨s, c⟩) := by
  rcases acts_stepped stepped st handle found holding with
    ⟨told, asked, x, handle', turn, hx, hcompletes, hacts⟩
  obtain rfl := Option.some.inj (hst'.symm.trans hx)
  rw [hacts, ← List.append_assoc]
  rcases hdone : st.done with _ | _
  · rcases turn.flags hdone with ⟨done, rfl, hend⟩
    rcases ht.turn hd holding hdone (s.begins e st handle)
      (fun hstarted => by rw [begins, hstarted, Bool.true_or]) with ⟨ht', hd'⟩
    have hended := ht'.ended hdone done
    rcases hc : Deed.completes e ⟨s, c⟩ with _ | _
    · rw [if_neg Bool.false_ne_true, List.append_nil]
      exact ⟨hended, hd'⟩
    · rw [if_pos rfl]
      exact ⟨hended.completed (hend (hcompletes hc)), hd'.concat trivial⟩
  · -- A statement that is done does nothing, and completes nothing.
    rcases turn.of_done hdone with ⟨hrefused, rfl⟩
    have hnone : st'.turnActs (s.begins e st' handle) = [] := by
      rw [Statement.turnActs, hdone, if_pos rfl]
    rcases hc : Deed.completes e ⟨s, c⟩ with _ | _
    · rw [hnone, if_neg Bool.false_ne_true, List.append_nil, List.append_nil]
      exact ⟨ht, hd⟩
    · rw [hcompletes hc] at hrefused
      cases hrefused

/-- Every deed keeps the flags of a statement and its acts together, and the
    discipline. The cases are what the command is to the statement: it moves it,
    being a step or a reset, and finds it closed or open; or it does not move
    it, and closes it or not. -/
theorem acts_kept (separate : s.Separate) (acts : List Act) (st st' : Statement)
    (hst : s.statements[id]? = some st) (hst' : (s.perform e c).2.statements[id]? = some st')
    (ht : Tells acts st) (hd : Disciplined acts) :
    Tells (acts ++ Deed.acts e id ⟨s, c⟩) st' ∧ Disciplined (acts ++ Deed.acts e id ⟨s, c⟩) := by
  rcases separate.found s id st hst with ⟨handle, found⟩
  by_cases moved : c.moved? = some id
  · rcases holding : st.holding with _ | _
    · rw [acts_rejected moved st hst holding, List.append_nil]
      rw [(perform_closed e c s id st hst moved holding).1, hst, Option.some.injEq] at hst'
      rw [← hst']
      exact ⟨ht, hd⟩
    · by_cases stepped : c.stepped? = some id
      · exact acts_kept_stepped stepped acts st st' handle found holding hst' ht hd
      · cases c with
        | reset id' params =>
            obtain rfl : id' = id := Option.some.inj moved
            rcases acts_reset (e := e) params st handle found holding with ⟨hacts, hx⟩
            obtain rfl := Option.some.inj (hst'.symm.trans hx)
            rw [hacts]
            exact ⟨ht.reset params, hd.concat trivial⟩
        | step id' => exact absurd moved stepped
        | exec id' => exact absurd moved stepped
        | _ => cases moved
  · have hlt := (List.getElem?_eq_some_iff.mp hst).1
    rcases (perform_leads e c s).statement_rests id
      (fun hc => hc.elim moved (Nat.not_le.mpr hlt)) st hst with ⟨x, hx, hrests⟩
    obtain rfl := Option.some.inj (hst'.symm.trans hx)
    -- The flags are left alone, so only the closing is left to tell.
    have ht' := ht.rests hrests
    rw [acts_unmoved separate moved st st' hst hst']
    by_cases hcloses : c.closed? = some id
    · rw [if_pos hcloses]
      exact ⟨ht'.closing (perform_closes hcloses st' hst'), hd.concat trivial⟩
    · rw [if_neg hcloses, List.append_nil]
      exact ⟨ht', hd⟩

/-- Every deed obeys the discipline, and keeps flags and acts together, also of
    a statement that is only made in it or has not been made yet. -/
theorem accounts_perform (e : Engine) (c : Command) (separate : s.Separate) (acts : List Act)
    (ha : Accounts acts s id) :
    Accounts (acts ++ Deed.acts e id ⟨s, c⟩) (s.perform e c).2 id := by
  rcases hst' : (s.perform e c).2.statements[id]? with _ | st'
  · have hst : s.statements[id]? = none := by
      rcases hst : s.statements[id]? with _ | st
      · rfl
      · -- No statement is ever removed.
        rcases (perform_leads e c s).statement_kept id st hst with ⟨x, hx, -⟩
        rw [hst'] at hx
        cases hx
    have hnone : Deed.acts e id ⟨s, c⟩ = [] := by
      simp only [Deed.acts, Deed.after, hst']
    rw [ha.unmade hst, hnone]
    refine ⟨fun _ => rfl, fun st hc => ?_, disciplined_nil⟩
    rw [hst'] at hc
    cases hc
  · have hboth : Tells (acts ++ Deed.acts e id ⟨s, c⟩) st' ∧
        Disciplined (acts ++ Deed.acts e id ⟨s, c⟩) := by
      rcases hst : s.statements[id]? with _ | st
      · rw [ha.unmade hst, List.nil_append]
        exact acts_made hst st' hst'
      · exact acts_kept separate acts st st' hst hst' (ha.tells st hst) ha.disciplined
    refine ⟨fun hc => ?_, fun st hst => ?_, hboth.2⟩
    · rw [hst'] at hc
      cases hc
    · rw [Option.some.inj (hst.symm.trans hst')]
      exact hboth.1

/-- In every run the flags of a statement are what its acts say, and the acts
    are disciplined. -/
theorem run_accounts (e : Engine) (path : Text) (config : Config) (here : Path)
    (cs : List Command) (id : StatementId) :
    Accounts ((start path config here).acts e id cs) ((start path config here).run e cs).2 id := by
  induction cs using List.reverseRecOn with
  | nil => exact ⟨fun _ => rfl, fun st hst => (by cases hst), disciplined_nil⟩
  | append_singleton cs c ih =>
      have hreach := reachable_run e (fun _ => True) cs _ (.start path config here)
        (fun _ _ => trivial)
      rw [run_concat, acts_concat]
      exact accounts_perform e c (reachable_separate e _ _ hreach) _ ih

/-- The sessions of the deeds of a run can be reached. -/
theorem deeds_reachable (e : Engine) (cs : List Command) (s : Session)
    (hs : Reachable e (fun _ => True) s) (d : Deed) (hd : d ∈ s.deeds e cs) :
    Reachable e (fun _ => True) d.before := by
  induction cs generalizing s with
  | nil => exact absurd hd List.not_mem_nil
  | cons c rest ih =>
      rcases List.mem_cons.mp hd with rfl | hd
      · exact hs
      · exact ih _ (hs.perform c trivial) hd

/-- In every run every statement uses the engine in order: it executes what was
    set last, and that at most once with success from one beginning to the next,
    it fetches only after that, and it does neither once it is closed or has
    reported completion. And nothing is executed or fetched on a cursor but by a
    step of its statement, by a query that makes the statement, or directly by
    the handle.

    Nothing is asked of the engine or of the program. An execution that fails
    may be repeated, because the statement has not started by it. -/
theorem calls_disciplined (e : Engine) (path : Text) (config : Config) (here : Path)
    (cs : List Command) :
    (∀ id, Disciplined ((start path config here).acts e id cs)) ∧
      ∀ d ∈ (start path config here).deeds e cs, ∀ k ∈ d.issued e, ∀ h, k.cursor? = some h →
        d.command = .executeHandle h ∨
          ∃ id st, (d.after e).statements[id]? = some st ∧ st.handle = h ∧
            (d.command.stepped? = some id ∨
              d.before.statements[id]? = none ∧ d.command.queries = true) := by
  refine ⟨fun id => (run_accounts e path config here cs id).disciplined, ?_⟩
  intro d hd k hk h hcursor
  have hreach := deeds_reachable e cs _ (.start path config here) d hd
  rcases (perform_leads e d.command d.before).calls_grow with ⟨more, hmore⟩
  rw [Deed.issued_eq (d := d) hmore] at hk
  exact perform_calls e d.command d.before (reachable_separate e _ _ hreach) more hmore k hk h
    hcursor

/-- A program that steps a statement to its end, resets it, steps it again and
    closes it. -/
def rerunning : List Command :=
  [.openDatabase, .prepare (.text []) .empty, .step 0, .step 0, .reset 0 none, .step 0,
    .closeStatement 0, .step 0]

/-- The execution after the reset is for what was set when the statement was
    made, and there was none since. -/
theorem calls_disciplined_rerunning :
    unopened.acts .oneRow 0 rerunning =
        [.made (.text []) .empty, .executed (.text []) .empty true, .fetched, .fetched, .completed,
          .reset none] ++ .executed (.text []) .empty true :: [.fetched, .closed] ∧
      Obeys [.made (.text []) .empty, .executed (.text []) .empty true, .fetched, .fetched,
        .completed, .reset none] (.executed (.text []) .empty true) := by
  have hacts : unopened.acts .oneRow 0 rerunning =
      [.made (.text []) .empty, .executed (.text []) .empty true, .fetched, .fetched, .completed,
        .reset none] ++ .executed (.text []) .empty true :: [.fetched, .closed] := rfl
  rcases calls_disciplined .oneRow [] .standard ⟨.root, []⟩ rerunning with ⟨hdisciplined, -⟩
  exact ⟨hacts, hdisciplined 0 _ _ _ hacts⟩

end Session

end RowScope
