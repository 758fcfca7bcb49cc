import Mathlib.Logic.Function.Basic
import RowScope.Proofs.Session.Calls

/-!
# The Engine's Side

What the engine has of a session: the requests that it has answered, the
cursors, and which of the connections are open. Everything that a call comes to
depends on these alone. So whether a call failed, and how, need not be recorded
while a program runs. It can be told afterwards, from the calls and from what
the engine had before them, and without looking at the program that made them.

The cursor of a handle that is not made yet is part of it, as the one that the
handle would get if it were made at once. With that, making a handle is nothing
to the engine, and an operation that makes a handle on its way is followed like
any other. Opening and closing the database are left out here for the same
reason, since with the connection in use these cursors change.

## Main definitions

* `Wire`: The engine's side of a session.
* `Wire.meet?`, `Wire.after`: The failure that a call meets, and the engine's
  side afterwards.
* `Event`, `Wire.transcript`: A call with its failure, and those of several
  calls.
* `Session.wire`: The engine's side of a session.
* `Session.Follows`: One session comes out of another by certain calls.

## Theorems

* `transcript_append`: A transcript in two parts.
* `executeCursor_follows`, `fetchCursor_follows`: An execution and a fetch fail
  as their calls do.
* `release_trails`, `releaseView_trails`, `closeStatement_trails`: Giving back a
  share calls for the end of a cursor at most.
* `through_connection`, `through_connections`: A cursor stays with its
  connection, and a connection as open as it is, unless connections are called
  for.
-/

namespace RowScope

/-- The failure that an answer is, if it is one. -/
def failure? {α : Type} : Except EngineError α → Option EngineError
  | .error x => some x
  | .ok _ => none

/-- The engine's side of a session. -/
structure Wire where
  past : List Request
  cursor : HandleId → Cursor
  /-- For each connection that was made, whether it is open. -/
  connections : List Bool

/-- A call, with the failure that it met, if it met one. -/
structure Event where
  call : Call
  failure : Option EngineError

namespace Wire

/-- The connection was made and not closed yet. -/
def isOpen (w : Wire) (c : ConnectionId) : Bool := w.connections[c]?.getD false

/-- Why the cursor of a handle cannot be used. -/
def refusal? (w : Wire) (h : HandleId) : Option EngineError :=
  (w.cursor h).refusal? (w.isOpen (w.cursor h).connection)

/-- One more answered request. -/
def asked (w : Wire) (r : Request) : Wire :=
  { w with past := w.past ++ [r] }

/-- A change of one cursor. -/
def onCursor (w : Wire) (h : HandleId) (f : Cursor → Cursor) : Wire :=
  { w with cursor := Function.update w.cursor h (f (w.cursor h)) }

/-- The failure that a call meets. Cursors are refused before the engine is
    asked. -/
def meet? (e : Engine) (w : Wire) : Call → Option EngineError
  | .connect target _ _ => e.connect w.past target
  | .pragma sql => e.pragma w.past sql
  | .script sql => (e.script w.past sql).2
  | .execute h sql params => (w.refusal? h).or (failure? (e.execute w.past sql params))
  | .fetch h => (w.refusal? h).or (failure? (w.cursor h).next.1)
  | .finalize h => if w.isOpen (w.cursor h).connection then none else some .closedDatabase
  | .disconnect _ => none

/-- The engine's side after a call. -/
def after (e : Engine) (w : Wire) : Call → Wire
  | .connect target _ uri =>
    let asked := w.asked (.connect target uri)
    if (e.connect w.past target).isNone then
      { asked with connections := w.connections ++ [true] }
    else asked
  | .pragma sql => w.asked (.pragma sql)
  | .script sql => w.asked (.script sql)
  | .execute h sql params =>
    if (w.refusal? h).isSome then w
    else (w.onCursor h (·.executed (e.execute w.past sql params))).asked (.execute sql params)
  | .fetch h => if (w.refusal? h).isSome then w else w.onCursor h (·.next.2)
  | .finalize h =>
    if w.isOpen (w.cursor h).connection then w.onCursor h fun c => { c with closed := true } else w
  | .disconnect c => { w with connections := w.connections.set c false }

/-- The engine's side after several calls. -/
def through (e : Engine) (w : Wire) (ks : List Call) : Wire := ks.foldl (after e) w

/-- What several calls come to. -/
def transcript (e : Engine) (w : Wire) : List Call → List Event
  | [] => []
  | k :: rest => ⟨k, w.meet? e k⟩ :: (w.after e k).transcript e rest

/-- A transcript in two parts: the second one begins with what the engine has
    after the first. -/
theorem transcript_append (e : Engine) (w : Wire) (first last : List Call) :
    w.transcript e (first ++ last) =
      w.transcript e first ++ (w.through e first).transcript e last := by
  induction first generalizing w with
  | nil => rfl
  | cons k rest ih =>
      simp only [List.cons_append, transcript, ih]
      rfl

/-- Two changes of one cursor, with a request between them. -/
theorem onCursor_asked_onCursor (w : Wire) (h : HandleId) (f g : Cursor → Cursor) (r : Request) :
    ((w.onCursor h f).asked r).onCursor h g = (w.onCursor h fun c => g (f c)).asked r := by
  simp only [onCursor, asked, Function.update_self, Function.update_idem]

/-- No call takes a cursor to another connection. -/
theorem after_connection (e : Engine) (w : Wire) (k : Call) (h : HandleId) :
    ((w.after e k).cursor h).connection = (w.cursor h).connection := by
  -- A change of one cursor that keeps the connection of every cursor.
  have changed : ∀ (w' : Wire) (h' : HandleId) (f : Cursor → Cursor),
      (∀ c, (f c).connection = c.connection) →
      ((w'.onCursor h' f).cursor h).connection = (w'.cursor h).connection := by
    intro w' h' f hf
    by_cases heq : h = h'
    · simp only [onCursor, heq, Function.update_self]
      exact hf _
    · simp only [onCursor, Function.update_of_ne heq]
  have executed : ∀ (answer : Except EngineError Answer) (c : Cursor),
      (c.executed answer).connection = c.connection := by
    intro answer c
    cases answer with
    | error x => rfl
    | ok a => rfl
  have next : ∀ c : Cursor, c.next.2.connection = c.connection := by
    intro c
    unfold Cursor.next
    split
    · rfl
    · rfl
    · rfl
  -- A call changes one cursor at most, and by one of the functions above.
  cases k with
  | connect target timeout uri =>
      simp only [after]
      split
      · rfl
      · rfl
  | execute h' sql params =>
      simp only [after]
      split
      · rfl
      · exact changed w h' _ (executed _)
  | fetch h' =>
      simp only [after]
      split
      · rfl
      · exact changed w h' _ next
  | finalize h' =>
      simp only [after]
      split
      · exact changed w h' _ (fun _ => rfl)
      · rfl
  | _ => rfl

end Wire

/-- A call that neither makes nor ends a connection, nor sets one up. -/
def Call.isWork : Call → Bool
  | connect _ _ _ => false
  | pragma _ => false
  | disconnect _ => false
  | _ => true

namespace Wire

/-- The calls that do the work of a command leave every connection as open as it
    is. -/
theorem after_connections (e : Engine) (w : Wire) (k : Call) (hk : k.isWork = true) :
    (w.after e k).connections = w.connections := by
  cases k with
  | connect target timeout uri => cases hk
  | pragma sql => cases hk
  | disconnect c => cases hk
  | script sql => rfl
  -- A cursor may have a new result, whichever way the engine answers.
  | execute h sql params =>
      simp only [after]
      split
      · rfl
      · rfl
  | fetch h =>
      simp only [after]
      split
      · rfl
      · rfl
  | finalize h =>
      simp only [after]
      split
      · rfl
      · rfl

theorem through_connection (e : Engine) (w : Wire) (ks : List Call) (h : HandleId) :
    ((w.through e ks).cursor h).connection = (w.cursor h).connection := by
  induction ks generalizing w with
  | nil => rfl
  | cons k rest ih => exact (ih (w.after e k)).trans (w.after_connection e k h)

/-- A connection stays as open as it is through calls that do the work of a
    command. -/
theorem through_connections (e : Engine) (w : Wire) (ks : List Call)
    (hks : ∀ k ∈ ks, k.isWork = true) : (w.through e ks).connections = w.connections := by
  induction ks generalizing w with
  | nil => rfl
  | cons k rest ih =>
      exact (ih (w.after e k) (fun k' hk' => hks k' (List.mem_cons_of_mem k hk'))).trans
        (w.after_connections e k (hks k List.mem_cons_self))

end Wire

namespace Session

/-- The engine's side of a session. A handle that was not made yet has the
    cursor that it would get if it were made at once, on the connection in use,
    or else on the one that would be made next. -/
def wire (s : Session) : Wire where
  past := s.past
  cursor h := match s.handles[h]? with
    | some handle => handle.cursor
    | none => .fresh (s.database.connection.getD s.connections.length)
  connections := s.connections.map (·.isOpen)

theorem wire_isOpen (s : Session) (c : ConnectionId) : s.wire.isOpen c = s.isConnected c := by
  simp only [Wire.isOpen, wire, isConnected, List.getElem?_map]
  rcases s.connections[c]? with _ | connection
  · rfl
  · rfl

theorem wire_cursor (s : Session) (h : HandleId) (handle : Handle)
    (hh : s.handles[h]? = some handle) : s.wire.cursor h = handle.cursor := by
  simp only [wire, hh]

theorem wire_refusal (s : Session) (h : HandleId) (handle : Handle)
    (hh : s.handles[h]? = some handle) : s.wire.refusal? h = s.refusal? handle := by
  rw [Wire.refusal?, wire_cursor s h handle hh, wire_isOpen]
  rfl

/-- A change of a cursor is one of the engine's side. -/
theorem wire_onCursor (s : Session) (h : HandleId) (handle : Handle)
    (hh : s.handles[h]? = some handle) (f : Cursor → Cursor) :
    (s.onHandle h (Handle.onCursor f)).wire = s.wire.onCursor h f := by
  have hcursor : (s.onHandle h (Handle.onCursor f)).wire.cursor = (s.wire.onCursor h f).cursor := by
    funext h'
    simp only [wire, onHandle, Wire.onCursor]
    -- The two are functions of identities, so they are compared at each: not a
    -- handle, this one, or another one.
    rcases hx : s.handles[h']? with _ | x
    · have hne : h' ≠ h := by
        rintro rfl
        rw [hx] at hh
        cases hh
      rw [List.getElem?_modify, hx, Function.update_of_ne hne, hx]
      rfl
    · rw [getElem?_modify_of_some _ _ h h' x hx]
      by_cases heq : h = h'
      · subst heq
        rw [if_pos rfl, Function.update_self, hx]
        rfl
      · rw [if_neg heq, Function.update_of_ne (Ne.symm heq), hx]
  exact Wire.mk.injEq .. ▸ ⟨rfl, hcursor, rfl⟩

/-- A change of a handle that leaves its cursor alone is nothing to the
    engine. -/
theorem wire_onHandle (s : Session) (h : HandleId) (f : Handle → Handle)
    (hf : ∀ x, (f x).cursor = x.cursor) : (s.onHandle h f).wire = s.wire := by
  have hcursor : (s.onHandle h f).wire.cursor = s.wire.cursor := by
    funext h'
    simp only [wire, onHandle]
    rcases hx : s.handles[h']? with _ | x
    · rw [List.getElem?_modify, hx]
      rfl
    · rw [getElem?_modify_of_some _ _ h h' x hx]
      by_cases heq : h = h'
      · rw [if_pos heq]
        exact hf x
      · rw [if_neg heq]
  exact Wire.mk.injEq .. ▸ ⟨rfl, hcursor, rfl⟩

/-- A change of a connection that neither opens nor closes it is nothing to the
    engine's side. -/
theorem wire_onConnection (s : Session) (c : ConnectionId) (f : Connection → Connection)
    (hf : ∀ x, (f x).isOpen = x.isOpen) : (s.onConnection c f).wire = s.wire := by
  have hmade : (s.connections.modify c f).length = s.connections.length := List.length_modify _ _ _
  have hopen := map_modify_same (·.isOpen) f hf s.connections c
  simp only [wire, onConnection, hmade, hopen]

/-- A new handle gets the cursor that was kept for it. -/
theorem wire_newHandle (s : Session) (c : ConnectionId) (sql : Sql)
    (opened : s.database.connection = some c) : (s.newHandle c sql).2.wire = s.wire := by
  have hcursor : (s.newHandle c sql).2.wire.cursor = s.wire.cursor := by
    funext h
    simp only [wire, newHandle]
    rcases hx : (s.handles ++ [Handle.fresh c sql])[h]? with _ | x
    · have hnone : s.handles[h]? = none := by
        rw [List.getElem?_eq_none_iff, List.length_append] at hx
        exact List.getElem?_eq_none (by omega)
      rw [hnone]
    · rcases of_getElem?_concat _ _ h x hx with ⟨heq, rfl⟩ | hold
      · rw [List.getElem?_eq_none (by omega), opened]
        rfl
      · rw [hold]
  exact Wire.mk.injEq .. ▸ ⟨rfl, hcursor, rfl⟩

/-- One session comes out of another by certain calls, and the engine's side
    follows them. All that is reported on the way is for whoever wants to know
    everything. -/
structure Follows (e : Engine) (s t : Session) (ks : List Call) : Prop where
  calls : t.calls = s.calls ++ ks
  wire : t.wire = s.wire.through e ks
  log : ∃ notes, t.log = s.log ++ notes ∧ ∀ n ∈ notes, n.level = .debug
  database : t.database = s.database
  made : t.handles.length = s.handles.length ∨ s.database.connection ≠ none

/-- One session comes out of another by calls to close cursors, if by any. -/
def Trails (e : Engine) (s t : Session) : Prop :=
  ∃ ks, s.Follows e t ks ∧ ∀ k ∈ ks, ∃ h, k = .finalize h

theorem Follows.refl (e : Engine) (s : Session) : s.Follows e s [] :=
  ⟨(List.append_nil _).symm, rfl, ⟨[], (List.append_nil _).symm, fun _ hn => absurd hn
    List.not_mem_nil⟩, rfl, Or.inl rfl⟩

/-- Calls follow one another, and so do the reports. -/
theorem Follows.trans {e : Engine} {s t u : Session} {first last : List Call}
    (h1 : s.Follows e t first) (h2 : t.Follows e u last) : s.Follows e u (first ++ last) := by
  rcases h1.log with ⟨notes1, hlog1, hdebug1⟩
  rcases h2.log with ⟨notes2, hlog2, hdebug2⟩
  refine ⟨?_, ?_, ⟨notes1 ++ notes2, ?_, fun n hn => ?_⟩, h2.database.trans h1.database, ?_⟩
  · rw [h2.calls, h1.calls, List.append_assoc]
  · rw [h2.wire, h1.wire, Wire.through, Wire.through, Wire.through, List.foldl_append]
  · rw [hlog2, hlog1, List.append_assoc]
  · exact (List.mem_append.mp hn).elim (hdebug1 n) (hdebug2 n)
  · rcases h1.made with hmade | hopen
    · rw [← hmade, ← h1.database]
      exact h2.made
    · exact Or.inr hopen

theorem Follows.then {e : Engine} {s t u : Session} {ks : List Call} (h1 : s.Follows e t ks)
    (h2 : t.Follows e u []) : s.Follows e u ks := by
  have h := h1.trans h2
  rwa [List.append_nil] at h

/-- What a session reports of itself is nothing to the engine. -/
theorem noted_follows (e : Engine) (s : Session) (d : Diagnostic) (hd : d.level = .debug) :
    s.Follows e (s.noted d) [] := by
  refine ⟨(List.append_nil _).symm, rfl, ⟨[d], rfl, fun n hn => ?_⟩, rfl, Or.inl rfl⟩
  rw [List.mem_singleton.mp hn]
  exact hd

/-- Nothing is called, and what changes is nothing to the engine. -/
theorem Follows.aside {e : Engine} {s t : Session} (wire : t.wire = s.wire)
    (calls : t.calls = s.calls) (log : t.log = s.log) (database : t.database = s.database)
    (made : t.handles.length = s.handles.length ∨ s.database.connection ≠ none) :
    s.Follows e t [] :=
  ⟨by rw [calls, List.append_nil], wire, ⟨[], by rw [log, List.append_nil],
    fun _ hn => absurd hn List.not_mem_nil⟩, database, made⟩

/-- One call, with what it makes of the engine's side. -/
theorem Follows.call {e : Engine} {s t : Session} {k : Call} (calls : t.calls = s.calls ++ [k])
    (log : t.log = s.log) (database : t.database = s.database)
    (made : t.handles.length = s.handles.length) (wire : t.wire = s.wire.after e k) :
    s.Follows e t [k] :=
  ⟨calls, wire, ⟨[], by rw [log, List.append_nil], fun _ hn => absurd hn List.not_mem_nil⟩,
    database, Or.inl made⟩

/-- A change of a handle, but not of its cursor, needs no call. -/
theorem onHandle_follows (e : Engine) (s : Session) (h : HandleId) (f : Handle → Handle)
    (hf : ∀ x, (f x).cursor = x.cursor) : s.Follows e (s.onHandle h f) [] :=
  .aside (s.wire_onHandle h f hf) rfl rfl rfl (Or.inl (List.length_modify _ _ _))

theorem onStatement_follows (e : Engine) (s : Session) (id : StatementId)
    (f : Statement → Statement) : s.Follows e (s.onStatement id f) [] :=
  .aside rfl rfl rfl rfl (Or.inl rfl)

theorem onView_follows (e : Engine) (s : Session) (v : ViewId) (f : View → View) :
    s.Follows e (s.onView v f) [] :=
  .aside rfl rfl rfl rfl (Or.inl rfl)

/-! ### Executions and fetches -/

/-- An execution is one call, and fails as the call does. Refused, failed or
    executed, what the operation makes of the cursor is what the engine's side
    has after the call. -/
theorem executeCursor_follows (e : Engine) (h : HandleId) (handle : Handle) (sql : Sql)
    (params : Params) (s : Session) (hh : s.handles[h]? = some handle) :
    s.Follows e (s.executeCursor e h handle sql params).2 [.execute h sql params] ∧
      s.wire.meet? e (.execute h sql params) =
        failure? (s.executeCursor e h handle sql params).1 := by
  have hwire := s.wire_refusal h handle hh
  have hcalled : (s.called (.execute h sql params)).handles[h]? = some handle := hh
  rcases hrefusal : s.refusal? handle with _ | x
  · rw [hrefusal] at hwire
    have hclear := wire_onCursor _ h handle hcalled Cursor.cleared
    have hcleared := getElem?_modify_of_some s.handles (Handle.onCursor Cursor.cleared) h h handle
      hh
    rw [if_pos rfl] at hcleared
    have hafter : s.wire.after e (.execute h sql params) =
        (s.wire.onCursor h (·.executed (e.execute s.past sql params))).asked
          (.execute sql params) := by
      simp only [Wire.after, hwire, Option.isSome_none, Bool.false_eq_true, if_false]
      rfl
    have hmeet : s.wire.meet? e (.execute h sql params) =
        failure? (e.execute s.past sql params) := by
      simp only [Wire.meet?, hwire, Option.none_or]
      rfl
    -- The cursor can be used, so the failure is that of the engine, if there is
    -- one.
    rcases hanswer : e.execute s.past sql params with x | a
    · rw [hanswer] at hafter hmeet
      rw [executeCursor_failed e h handle sql params s hrefusal x hanswer]
      exact ⟨.call rfl rfl rfl (List.length_modify _ _ _)
        ((congrArg (Wire.asked · _) hclear).trans hafter.symm), hmeet⟩
    · rw [hanswer] at hafter hmeet
      rw [executeCursor_executed e h handle sql params s hrefusal a hanswer]
      refine ⟨.call rfl rfl rfl ((List.length_modify _ _ _).trans (List.length_modify _ _ _)) ?_,
        hmeet⟩
      -- The last result is forgotten, the engine asked, and the new result
      -- held.
      refine (wire_onConnection _ _ (fun c => { c with changes := c.changes + a.changes })
        (fun _ => rfl)).trans ?_
      refine (wire_onCursor _ h _ hcleared (Cursor.holding · a)).trans ?_
      refine (congrArg (fun w => (Wire.asked w _).onCursor h (Cursor.holding · a)) hclear).trans ?_
      rw [Wire.onCursor_asked_onCursor, hafter]
      rfl
  · rw [hrefusal] at hwire
    rw [executeCursor_refused e h handle sql params s x hrefusal]
    refine ⟨.call rfl rfl rfl rfl ?_, ?_⟩
    · simp only [Wire.after, hwire, Option.isSome_some, if_true]
      rfl
    · simp only [Wire.meet?, hwire, Option.some_or]
      rfl

/-- A fetch is one call, and fails as the call does. -/
theorem fetchCursor_follows (e : Engine) (h : HandleId) (handle : Handle) (s : Session)
    (hh : s.handles[h]? = some handle) :
    s.Follows e (s.fetchCursor h).2 [.fetch h] ∧
      s.wire.meet? e (.fetch h) = failure? (s.fetchCursor h).1 := by
  have hwire := s.wire_refusal h handle hh
  have hcursor := s.wire_cursor h handle hh
  have hcalled : (s.called (.fetch h)).handles[h]? = some handle := hh
  -- The refusal is the same on both sides, and so is what the cursor holds
  -- next.
  rcases hrefusal : s.refusal? handle with _ | x
  · have hsame : (s.called (.fetch h)).refusal? handle = none := hrefusal
    rw [hrefusal] at hwire
    simp only [fetchCursor, hcalled, hsame]
    refine ⟨.call rfl rfl rfl (List.length_modify _ _ _) ?_, ?_⟩
    · rw [wire_onCursor _ h handle hcalled]
      simp only [Wire.after, hwire, Option.isSome_none, Bool.false_eq_true, if_false,
        Wire.onCursor, hcursor]
      rfl
    · simp only [Wire.meet?, hwire, Option.none_or, hcursor]
  · have hsame : (s.called (.fetch h)).refusal? handle = some x := hrefusal
    rw [hrefusal] at hwire
    simp only [fetchCursor, hcalled, hsame]
    refine ⟨.call rfl rfl rfl rfl ?_, ?_⟩
    · simp only [Wire.after, hwire, Option.isSome_some, if_true]
      rfl
    · simp only [Wire.meet?, hwire, Option.some_or]
      rfl

/-! ### Giving back shares -/

theorem Trails.refl (e : Engine) (s : Session) : s.Trails e s :=
  ⟨[], .refl e s, fun _ hk => absurd hk List.not_mem_nil⟩

/-- What needs no call needs no call but the ends of cursors. -/
theorem Trails.of_follows {e : Engine} {s t : Session} (h : s.Follows e t []) : s.Trails e t :=
  ⟨[], h, fun _ hk => absurd hk List.not_mem_nil⟩

theorem Trails.trans {e : Engine} {s t u : Session} (h1 : s.Trails e t) (h2 : t.Trails e u) :
    s.Trails e u := by
  rcases h1 with ⟨first, hfirst, hends1⟩
  rcases h2 with ⟨last, hlast, hends2⟩
  exact ⟨first ++ last, hfirst.trans hlast,
    fun k hk => (List.mem_append.mp hk).elim (hends1 k) (hends2 k)⟩

/-- The end of a handle is the call that closes its cursor. What the handle
    loses before is nothing to the engine, and it loses it whether or not the
    cursor can be closed. -/
theorem finalize_trails (e : Engine) (h : HandleId) (handle : Handle) (s : Session)
    (hh : s.handles[h]? = some handle) : s.Trails e (s.finalize h handle) := by
  let dropped : Handle → Handle := fun x => { x with shares := 0, finalized := true, row := none }
  have hdrop := (onHandle_follows e s h dropped (fun _ => rfl)).trans
    (noted_follows e _ (.finalizing handle.sql) rfl)
  have hdropped : ((s.onHandle h dropped).noted (.finalizing handle.sql)).handles[h]? =
      some (dropped handle) := by
    have hmodify := getElem?_modify_of_some s.handles dropped h h handle hh
    rwa [if_pos rfl] at hmodify
  generalize hu : (s.onHandle h dropped).noted (.finalizing handle.sql) = u at hdrop hdropped
  have hwire : u.wire.isOpen (u.wire.cursor h).connection =
      u.isConnected handle.cursor.connection := by
    rw [wire_cursor u h _ hdropped, wire_isOpen]
  refine ⟨[.finalize h], ?_, fun k hk => ⟨h, List.mem_singleton.mp hk⟩⟩
  -- Whether the engine closes the cursor depends on the connection alone.
  rcases hconnected : u.isConnected handle.cursor.connection with _ | _
  · rw [hconnected] at hwire
    have hcalled : (u.called (.finalize h)).isConnected handle.cursor.connection = false :=
      hconnected
    have heq : s.finalize h handle =
        (u.called (.finalize h)).noted (.cursorUnusable EngineError.closedDatabase.message) := by
      rw [← hu] at hcalled ⊢
      simp only [finalize, closeCursor, dropped] at hcalled ⊢
      simp only [hcalled, Bool.false_eq_true, if_false]
    have hcall : u.Follows e (u.called (.finalize h)) [.finalize h] := by
      refine .call rfl rfl rfl rfl ?_
      simp only [Wire.after, hwire, Bool.false_eq_true, if_false]
      rfl
    rw [heq]
    exact hdrop.trans (hcall.then (noted_follows e _ _ rfl))
  · rw [hconnected] at hwire
    have hcalled : (u.called (.finalize h)).isConnected handle.cursor.connection = true :=
      hconnected
    have heq : s.finalize h handle = (u.called (.finalize h)).onHandle h
        (Handle.onCursor fun c => { c with closed := true }) := by
      rw [← hu] at hcalled ⊢
      simp only [finalize, closeCursor, dropped] at hcalled ⊢
      simp only [hcalled, if_true]
    have hhandle : (u.called (.finalize h)).handles[h]? = some (dropped handle) := hdropped
    rw [heq]
    refine hdrop.trans (.call rfl rfl rfl (List.length_modify _ _ _) ?_)
    rw [wire_onCursor _ h _ hhandle]
    simp only [Wire.after, hwire, if_true]
    rfl

theorem release_trails (e : Engine) (h : HandleId) (s : Session) : s.Trails e (s.release h) := by
  unfold release
  rcases hh : s.handles[h]? with _ | handle
  · exact .refl e s
  · simp only []
    split
    · exact .of_follows (noted_follows e s _ rfl)
    · split
      · exact finalize_trails e h handle s hh
      · exact .of_follows (onHandle_follows e s h _ (fun _ => rfl))

theorem closeStatement_trails (e : Engine) (id : StatementId) (s : Session) :
    s.Trails e (s.closeStatement id) := by
  rcases closeStatement_cases id s with ⟨heq, -⟩ | ⟨st, -, -, heq⟩
  · rw [heq]
    exact .refl e s
  · rw [heq]
    exact (Trails.of_follows (onStatement_follows e s id _)).trans (release_trails e _ _)

theorem releaseView_trails (e : Engine) (v : ViewId) (s : Session) :
    s.Trails e (s.releaseView v) := by
  rcases releaseView_cases v s with ⟨heq, -⟩ | ⟨view, -, -, heq⟩
  · rw [heq]
    exact .refl e s
  · rw [heq]
    exact (Trails.of_follows (onView_follows e s v _)).trans (release_trails e _ _)

theorem releaseViews_trails (e : Engine) (vs : List ViewId) (s : Session) :
    s.Trails e (s.releaseViews vs) := by
  induction vs generalizing s with
  | nil => exact .refl e s
  | cons v rest ih => exact (releaseView_trails e v s).trans (ih (s.releaseView v))

/-! ### Making and looking up -/

/-- To make a statement needs no call, since the engine learns of its handle
    when that is first executed. -/
theorem newStatement_follows (e : Engine) (c : ConnectionId) (sql : Sql) (params : Params)
    (s : Session) (opened : s.database.connection = some c) :
    s.Follows e (s.newStatement c sql params).2 [] :=
  .aside (s.wire_newHandle c sql opened) rfl rfl rfl
    (Or.inr (by rw [opened]; exact Option.some_ne_none c))

theorem newView_follows (e : Engine) (h : HandleId) (index : Int) (s : Session) :
    s.Follows e (s.newView h index).2 [] :=
  (onHandle_follows e s h (fun x => { x with shares := x.shares + 1 }) (fun _ => rfl)).then
    (.aside rfl rfl rfl rfl (Or.inl rfl))

theorem newViews_follows (e : Engine) (h : HandleId) (is : List Nat) (s : Session) :
    s.Follows e (s.newViews h is).2 [] := by
  induction is generalizing s with
  | nil => exact .refl e s
  | cons i rest ih => exact (newView_follows e h i s).then (ih (s.newView h i).2)

/-- To fill a name table needs no call: the names are those of the result that
    the cursor holds. -/
theorem placesOf_follows (e : Engine) (id : StatementId) (st : Statement) (handle : Handle)
    (s : Session) : s.Follows e (s.placesOf id st handle).2 [] := by
  unfold placesOf
  split
  · exact .refl e s
  · split
    · exact .refl e s
    · exact onStatement_follows e s id _

theorem locate_follows (e : Engine) (id : StatementId) (st : Statement) (handle : Handle)
    (key : Key) (s : Session) : s.Follows e (s.locate id st handle key).2 [] := by
  rcases locate_state id st handle key s with heq | ⟨-, heq⟩
  · rw [heq]
    exact .refl e s
  · rw [heq]
    exact placesOf_follows e id st handle s

end Session

end RowScope
