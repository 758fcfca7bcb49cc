import Mathlib.Logic.Relation
import RowScope.Session.Command

/-!
# Moves

What an operation can do to a session, said once. Every operation is a sequence
of *moves*, and there are few kinds of them: a statement is made or closed, a
view is made or released, a row is set, a cursor is used, the flags or the name
table of a statement change, and beside all that the engine is called and events
are noted. Whoever wants an invariant of sessions has to look at the kinds of
moves and not at the operations.

A move has a label, its *touch*, which says what the move is about. An operation
is described by the touches of its moves, so that the frame of an operation,
which is everything that it leaves alone, can be read off its description: what
no move touches stays as it is.

Two moves have guards. The row of a handle is set only while a statement holds
the handle, and a view is made only while the handle has a row. The moves under
the labels `handle`, `bareView`, `share`, `giveBack` and `setRow` have none:
they belong to callers who use a handle directly.

## Main definitions

* `Touch`: What a move is about.
* `Move`: One move.
* `Move.Leaves`: What a touch leaves of a handle.
* `Session.Leads`: A sequence of moves, by a condition on their touches.
* `Session.Reachable`: The sessions that certain commands lead to.

## Theorems

* `release_cases`: Giving back a share is ignored, counted, or the end of the
  handle.
* `Move.statement_kept`, `Move.view_kept`, `Move.handle_kept`: What one move
  leaves alone.
* `Leads.statement_kept`, `Leads.view_kept`, `Leads.handle_kept`: The same for a
  sequence of moves.
* `Leads.views_le`, `Leads.calls_grow`: No view is ever removed, and no call
  taken back.
* `reachable_run`: A run of commands leads from reachable to reachable sessions.
-/

namespace RowScope

/-- What a move is about. -/
inductive Touch
  /-- Neither handles, statements and views nor the calls. -/
  | aside
  /-- A call that closes no cursor. -/
  | call (c : Call)
  /-- A new statement with its handle. -/
  | prepare
  /-- A new view of a handle that has a row. -/
  | view (h : HandleId)
  /-- The result that a cursor holds. -/
  | cursor (h : HandleId)
  /-- The row of a handle that a statement holds. -/
  | row (h : HandleId)
  /-- The parameters of a statement, and how far it has come. -/
  | flags (id : StatementId)
  /-- The name table of a statement, which is filled. -/
  | places (id : StatementId)
  /-- The share of a statement, which is given back. -/
  | close (id : StatementId)
  /-- The share of a view, which is given back. -/
  | release (v : ViewId)
  /-- A new handle without a statement. -/
  | handle
  /-- A new view of any handle. -/
  | bareView (h : HandleId)
  /-- One more share that belongs to nobody. -/
  | share (h : HandleId)
  /-- One share less, whoever it belonged to. -/
  | giveBack (h : HandleId)
  /-- The row of any handle. -/
  | setRow (h : HandleId)

/-- One move of a session. -/
inductive Move : Touch → Session → Session → Prop
  | aside {s t : Session} (handles : t.handles = s.handles)
      (statements : t.statements = s.statements)
      (views : t.views = s.views) (calls : t.calls = s.calls) : Move .aside s t
  | call {s : Session} (c : Call) (open_ : ∀ h, c ≠ .finalize h) : Move (.call c) s (s.called c)
  | prepare {s : Session} (connection : ConnectionId) (sql : Sql) (params : Params) :
      Move .prepare s (s.newStatement connection sql params).2
  | view {s : Session} {h : HandleId} {handle : Handle} (index : Int)
      (found : s.handles[h]? = some handle) (row : handle.hasRow = true) :
      Move (.view h) s (s.newView h index).2
  | cursor {s : Session} (h : HandleId) (f : Cursor → Cursor) :
      Move (.cursor h) s (s.onHandle h (Handle.onCursor f))
  | row {s : Session} {id : StatementId} {st : Statement} (row : Option Row)
      (found : s.statements[id]? = some st) (holding : st.holding = true) :
      Move (.row st.handle) s (s.setRow st.handle row)
  | flags {s : Session} (id : StatementId) (f : Statement → Statement)
      (kept : ∀ st, (f st).handle = st.handle ∧ (f st).holding = st.holding ∧
        (f st).places = st.places) : Move (.flags id) s (s.onStatement id f)
  | places {s : Session} {id : StatementId} {st : Statement} {handle : Handle}
      (found : s.statement? id = some (st, handle)) (empty : st.places = none)
      (names : handle.columnNames ≠ []) :
      Move (.places id) s
        (s.onStatement id fun st => { st with places := some (firstPlaces handle.columnNames) })
  | close {s : Session} (id : StatementId) : Move (.close id) s (s.closeStatement id)
  | release {s : Session} (v : ViewId) : Move (.release v) s (s.releaseView v)
  | handle {s : Session} (connection : ConnectionId) (sql : Sql) :
      Move .handle s (s.newHandle connection sql).2
  | bareView {s : Session} {h : HandleId} {handle : Handle} (index : Int)
      (found : s.handles[h]? = some handle) : Move (.bareView h) s (s.newView h index).2
  | share {s : Session} (h : HandleId) : Move (.share h) s (s.share h)
  | giveBack {s : Session} (h : HandleId) : Move (.giveBack h) s (s.release h)
  | setRow {s : Session} (h : HandleId) (row : Option Row) : Move (.setRow h) s (s.setRow h row)

namespace Session

/-- A sequence of moves, all of whose touches meet a condition. -/
def Leads (P : Touch → Prop) : Session → Session → Prop :=
  Relation.ReflTransGen fun s t => ∃ a, P a ∧ Move a s t

/-- The sessions that commands of a certain kind lead to, starting with
    nothing. -/
inductive Reachable (e : Engine) (allowed : Command → Prop) : Session → Prop
  | start (path : Text) (config : Config) (here : Path) :
      Reachable e allowed (Session.start path config here)
  | perform {s : Session} (c : Command) (before : Reachable e allowed s) (permitted : allowed c) :
      Reachable e allowed (s.perform e c).2

end Session

/-- What a list that was changed at one place holds at another one, or at the
    same. -/
theorem getElem?_modify_of_some {α : Type} (l : List α) (f : α → α) (i j : Nat) (x : α)
    (h : l[j]? = some x) : (l.modify i f)[j]? = some (if i = j then f x else x) := by
  rw [List.getElem?_modify, h]
  rfl

/-- A longer list still holds what it held. -/
theorem getElem?_concat_of_some {α : Type} (l : List α) (y : α) (j : Nat) (x : α)
    (h : l[j]? = some x) : (l ++ [y])[j]? = some x := by
  rw [List.getElem?_append_left (List.getElem?_eq_some_iff.mp h).1]
  exact h

/-- What a list that was made longer by one holds is the new element or was
    there before. -/
theorem of_getElem?_concat {α : Type} (l : List α) (y : α) (j : Nat) (x : α)
    (h : (l ++ [y])[j]? = some x) : j = l.length ∧ x = y ∨ l[j]? = some x := by
  -- Where the new element is, and on either side of it.
  rcases Nat.lt_trichotomy j l.length with hlt | heq | hgt
  · rw [List.getElem?_append_left hlt] at h
    exact Or.inr h
  · subst heq
    rw [List.getElem?_concat_length, Option.some.injEq] at h
    exact Or.inl ⟨rfl, h.symm⟩
  · rw [List.getElem?_eq_none (by rw [List.length_append, List.length_singleton]; omega)] at h
    exact absurd h (by simp only [reduceCtorEq, not_false_eq_true])

namespace Session

/-- The end of a handle: no share, no row, one call. Whether the engine closes
    the cursor depends on the connection, so all that is said of the cursor is
    that it is closed or as it was. -/
theorem finalize_effect (h : HandleId) (handle : Handle) (s : Session) :
    (s.finalize h handle).statements = s.statements ∧ (s.finalize h handle).views = s.views ∧
      (s.finalize h handle).calls = s.calls ++ [.finalize h] ∧
      ∃ f : Handle → Handle, (s.finalize h handle).handles = s.handles.modify h f ∧
        ∀ x, (f x).shares = 0 ∧ (f x).finalized = true ∧ (f x).row = none ∧
          ∃ closed, (f x).cursor = { x.cursor with closed := closed } := by
  -- Whether the engine closes the cursor depends on the connection alone.
  rcases hc : s.isConnected handle.cursor.connection with _ | _
  · have heq : s.finalize h handle =
        (((s.onHandle h fun x => { x with shares := 0, finalized := true, row := none }).noted
          (.finalizing handle.sql)).called (.finalize h)).noted
            (.cursorUnusable EngineError.closedDatabase.message) := by
      unfold isConnected at hc
      simp only [finalize, closeCursor, isConnected, called, noted, onHandle, hc,
        Bool.false_eq_true, if_false]
    rw [heq]
    exact ⟨rfl, rfl, rfl, _, rfl, fun x => ⟨rfl, rfl, rfl, x.cursor.closed, rfl⟩⟩
  · have heq : s.finalize h handle =
        (((s.onHandle h fun x => { x with shares := 0, finalized := true, row := none }).noted
          (.finalizing handle.sql)).called (.finalize h)).onHandle h
            (Handle.onCursor fun c => { c with closed := true }) := by
      unfold isConnected at hc
      simp only [finalize, closeCursor, isConnected, called, noted, onHandle, hc, if_true]
    rw [heq]
    -- Two changes of one handle, which together are the effect.
    exact ⟨rfl, rfl, rfl, _, List.modify_modify_eq .., fun x => ⟨rfl, rfl, rfl, true, rfl⟩⟩

/-- Giving back a share of a handle is ignored if the handle is finalized,
    counted if another share is left, and otherwise the end of the handle. Each
    case carries the guard that led to it, so that what follows need not look at
    the program again. -/
theorem release_cases (h : HandleId) (s : Session) (handle : Handle)
    (hh : s.handles[h]? = some handle) :
    handle.finalized = true ∧ (s.release h).handles = s.handles ∧ (s.release h).calls = s.calls ∨
      handle.finalized = false ∧ 1 < handle.shares ∧
        (s.release h).handles =
          s.handles.modify h (fun x => { x with shares := x.shares - 1 }) ∧
        (s.release h).calls = s.calls ∨
      handle.finalized = false ∧ handle.shares ≤ 1 ∧
        (s.release h).calls = s.calls ++ [.finalize h] ∧
        ∃ f : Handle → Handle, (s.release h).handles = s.handles.modify h f ∧
          ∀ x, (f x).shares = 0 ∧ (f x).finalized = true ∧ (f x).row = none ∧
            ∃ closed, (f x).cursor = { x.cursor with closed := closed } := by
  -- The guards in the order in which the program asks them.
  rcases hf : handle.finalized with _ | _
  · by_cases hs : handle.shares ≤ 1
    · have heq : s.release h = s.finalize h handle := by
        simp only [release, hh, hf, hs, Bool.false_eq_true, if_false, if_true]
      rw [heq]
      rcases finalize_effect h handle s with ⟨-, -, hcalls, heffect⟩
      exact Or.inr (Or.inr ⟨rfl, hs, hcalls, heffect⟩)
    · have heq : s.release h = s.onHandle h fun x => { x with shares := x.shares - 1 } := by
        simp only [release, hh, hf, hs, Bool.false_eq_true, if_false]
      rw [heq]
      exact Or.inr (Or.inl ⟨rfl, by omega, rfl, rfl⟩)
  · have heq : s.release h = s.noted (.releaseIgnored handle.sql) := by
      simp only [release, hh, hf, if_true]
    rw [heq]
    exact Or.inl ⟨rfl, rfl, rfl⟩

/-- There is nothing to give back of a handle that was never made. -/
theorem release_missing (h : HandleId) (s : Session) (hh : s.handles[h]? = none) :
    s.release h = s := by
  simp only [release, hh]

@[simp] theorem release_statements (h : HandleId) (s : Session) :
    (s.release h).statements = s.statements := by
  unfold release
  split
  · rfl
  · split
    · rfl
    · split
      · exact (finalize_effect h _ s).1
      · rfl

@[simp] theorem release_views (h : HandleId) (s : Session) :
    (s.release h).views = s.views := by
  unfold release
  split
  · rfl
  · split
    · rfl
    · split
      · exact (finalize_effect h _ s).2.1
      · rfl

theorem release_calls (h : HandleId) (s : Session) :
    ∃ more, (s.release h).calls = s.calls ++ more := by
  rcases hx : s.handles[h]? with _ | x
  · exact ⟨[], by rw [release_missing h s hx, List.append_nil]⟩
  · rcases release_cases h s x hx with ⟨-, -, hc⟩ | ⟨-, -, -, hc⟩ | ⟨-, -, hc, -⟩
    · exact ⟨[], by rw [hc, List.append_nil]⟩
    · exact ⟨[], by rw [hc, List.append_nil]⟩
    · exact ⟨[.finalize h], hc⟩

/-- Giving back a share neither makes a handle nor removes one. -/
theorem release_handles_length (h : HandleId) (s : Session) :
    (s.release h).handles.length = s.handles.length := by
  rcases hx : s.handles[h]? with _ | x
  · rw [release_missing h s hx]
  · rcases release_cases h s x hx with ⟨-, hs, -⟩ | ⟨-, -, hs, -⟩ | ⟨-, -, -, f, hs, -⟩
    · rw [hs]
    · rw [hs, List.length_modify]
    · rw [hs, List.length_modify]

/-- Giving back a share changes no other handle, and of the handle itself
    neither the row, unless it is finalized, nor the names of its columns. -/
theorem release_handle (h h' : HandleId) (s : Session) (handle : Handle)
    (hh : s.handles[h']? = some handle) :
    ∃ handle', (s.release h).handles[h']? = some handle' ∧
      handle'.cursor.columns = handle.cursor.columns ∧
      (handle'.finalized = false → handle'.row = handle.row) ∧
      (handle.finalized = true → handle'.finalized = true) := by
  rcases hx : s.handles[h]? with _ | x
  · rw [release_missing h s hx]
    exact ⟨handle, hh, rfl, fun _ => rfl, id⟩
  · rcases release_cases h s x hx with ⟨-, hs, -⟩ | ⟨-, -, hs, -⟩ | ⟨-, -, -, f, hs, hf⟩
    · rw [hs]
      exact ⟨handle, hh, rfl, fun _ => rfl, id⟩
    · rw [hs, getElem?_modify_of_some _ _ h h' handle hh]
      refine ⟨_, rfl, ?_⟩
      by_cases heq : h = h'
      · rw [if_pos heq]
        exact ⟨rfl, fun _ => rfl, id⟩
      · rw [if_neg heq]
        exact ⟨rfl, fun _ => rfl, id⟩
    · -- The end takes the row away, but then the handle is finalized.
      rw [hs, getElem?_modify_of_some _ _ h h' handle hh]
      refine ⟨_, rfl, ?_⟩
      by_cases heq : h = h'
      · rw [if_pos heq]
        rcases hf handle with ⟨-, hfin, -, closed, hcursor⟩
        exact ⟨by rw [hcursor], fun hc => absurd hc (by rw [hfin]; exact Bool.noConfusion),
          fun _ => hfin⟩
      · rw [if_neg heq]
        exact ⟨rfl, fun _ => rfl, id⟩

/-- Closing a statement gives its share back, unless it has given it back
    before. -/
theorem closeStatement_cases (id : StatementId) (s : Session) :
    s.closeStatement id = s ∧ (∀ st, s.statements[id]? = some st → st.holding = false) ∨
      ∃ st, s.statements[id]? = some st ∧ st.holding = true ∧
        s.closeStatement id =
          (s.onStatement id fun st => { st with holding := false }).release st.handle := by
  unfold closeStatement
  rcases s.statements[id]? with _ | st
  · exact Or.inl ⟨rfl, fun _ hc => nomatch hc⟩
  · rcases hh : st.holding with _ | _
    · refine Or.inl ⟨by simp only [hh, Bool.false_eq_true, if_false], fun st' hst' => ?_⟩
      rw [← Option.some.inj hst', hh]
    · exact Or.inr ⟨st, rfl, hh, by simp only [hh, if_true]⟩

/-- Releasing a view gives its share back, unless it has given it back
    before. -/
theorem releaseView_cases (v : ViewId) (s : Session) :
    s.releaseView v = s ∧ (∀ view, s.views[v]? = some view → view.holding = false) ∨
      ∃ view, s.views[v]? = some view ∧ view.holding = true ∧
        s.releaseView v =
          (s.onView v fun view => { view with holding := false }).release view.handle := by
  unfold releaseView
  rcases s.views[v]? with _ | view
  · exact Or.inl ⟨rfl, fun _ hc => nomatch hc⟩
  · rcases hh : view.holding with _ | _
    · refine Or.inl ⟨by simp only [hh, Bool.false_eq_true, if_false], fun view' hv' => ?_⟩
      rw [← Option.some.inj hv', hh]
    · exact Or.inr ⟨view, rfl, hh, by simp only [hh, if_true]⟩

end Session

/-- A change that does nothing to the element at its place does nothing. -/
theorem modify_eq_self_of {α : Type} (l : List α) (f : α → α) (i : Nat)
    (h : ∀ x, l[i]? = some x → f x = x) : l.modify i f = l := by
  refine List.ext_getElem? (fun j => ?_)
  rcases hx : l[j]? with _ | x
  · rw [List.getElem?_modify, hx]
    rfl
  · rw [getElem?_modify_of_some l f i j x hx]
    by_cases hij : i = j
    · rw [if_pos hij, h x (by rw [hij]; exact hx)]
    · rw [if_neg hij]

/-- A change that the mapped function does not see. -/
theorem map_modify_same {α β : Type} (g : α → β) (f : α → α) (hf : ∀ x, g (f x) = g x) (l : List α)
    (i : Nat) : (l.modify i f).map g = l.map g := by
  refine List.ext_getElem? (fun j => ?_)
  rw [List.getElem?_map, List.getElem?_map]
  rcases hx : l[j]? with _ | x
  · rw [List.getElem?_modify, hx]
    rfl
  · rw [getElem?_modify_of_some l f i j x hx]
    by_cases hij : i = j
    · rw [if_pos hij, Option.map_some, Option.map_some, hf]
    · rw [if_neg hij]

namespace Session

/-- A statement is found together with the handle that it names. -/
theorem statement?_eq_some_iff (s : Session) (id : StatementId) (st : Statement)
    (handle : Handle) :
    s.statement? id = some (st, handle) ↔
      s.statements[id]? = some st ∧ s.handles[st.handle]? = some handle := by
  simp only [statement?, Option.bind_eq_bind, Option.bind_eq_some_iff, Option.pure_def,
    Option.some.injEq, Prod.mk.injEq]
  constructor
  · rintro ⟨st', hst, handle', hh, rfl, rfl⟩
    exact ⟨hst, hh⟩
  · rintro ⟨hst, hh⟩
    exact ⟨st, hst, handle, hh, rfl, rfl⟩

/-- What closing does to the statements does not depend on whether there is a
    share to give back. -/
theorem closeStatement_statements (id : StatementId) (s : Session) :
    (s.closeStatement id).statements =
      s.statements.modify id (fun st => { st with holding := false }) := by
  rcases closeStatement_cases id s with ⟨heq, hidle⟩ | ⟨st, _, _, heq⟩
  · -- A statement without a share is closed already, so marking it closed
    -- changes nothing.
    rw [heq, modify_eq_self_of]
    intro st hst
    rw [← hidle st hst]
  · rw [heq, release_statements]
    rfl

theorem closeStatement_views (id : StatementId) (s : Session) :
    (s.closeStatement id).views = s.views := by
  rcases closeStatement_cases id s with ⟨heq, _⟩ | ⟨st, _, _, heq⟩
  · rw [heq]
  · rw [heq, release_views]
    rfl

/-- What releasing does to the views does not depend on whether there is a share
    to give back. -/
theorem releaseView_views (v : ViewId) (s : Session) :
    (s.releaseView v).views = s.views.modify v (fun view => { view with holding := false }) := by
  rcases releaseView_cases v s with ⟨heq, hidle⟩ | ⟨view, _, _, heq⟩
  · rw [heq, modify_eq_self_of]
    intro view hv
    rw [← hidle view hv]
  · rw [heq, release_views]
    rfl

theorem releaseView_statements (v : ViewId) (s : Session) :
    (s.releaseView v).statements = s.statements := by
  rcases releaseView_cases v s with ⟨heq, _⟩ | ⟨view, _, _, heq⟩
  · rw [heq]
  · rw [heq, release_statements]
    rfl

end Session

namespace Move

/-- A statement keeps its handle. It keeps its share unless it is closed, and
    its name table unless there is none yet. The touch says which statement a
    move is about, so the conclusion is about every move, and a move that is
    about another statement is no exception to it. -/
theorem statement_kept (a : Touch) (s t : Session) (m : Move a s t) (id : StatementId)
    (st : Statement) (hst : s.statements[id]? = some st) :
    ∃ st', t.statements[id]? = some st' ∧ st'.handle = st.handle ∧
      (a ≠ .close id → st'.holding = st.holding) ∧
      (a ≠ .places id ∨ st.places ≠ none → st'.places = st.places) := by
  cases m with
  | aside _ statements _ _ =>
      rw [statements]
      exact ⟨st, hst, rfl, fun _ => rfl, fun _ => rfl⟩
  | call c _ => exact ⟨st, hst, rfl, fun _ => rfl, fun _ => rfl⟩
  | prepare connection sql params =>
      exact ⟨st, getElem?_concat_of_some _ _ _ _ hst, rfl, fun _ => rfl, fun _ => rfl⟩
  | view index _ _ => exact ⟨st, hst, rfl, fun _ => rfl, fun _ => rfl⟩
  | cursor h f => exact ⟨st, hst, rfl, fun _ => rfl, fun _ => rfl⟩
  | row row _ _ => exact ⟨st, hst, rfl, fun _ => rfl, fun _ => rfl⟩
  | flags id' f kept =>
      refine ⟨_, getElem?_modify_of_some _ f id' id st hst, ?_⟩
      by_cases heq : id' = id
      · rw [if_pos heq]
        exact ⟨(kept st).1, fun _ => (kept st).2.1, fun _ => (kept st).2.2⟩
      · rw [if_neg heq]
        exact ⟨rfl, fun _ => rfl, fun _ => rfl⟩
  | @places _ id' st' handle found empty names =>
      refine ⟨_, getElem?_modify_of_some _ _ id' id st hst, ?_⟩
      by_cases heq : id' = id
      · rw [if_pos heq]
        refine ⟨rfl, fun _ => rfl, fun hor => ?_⟩
        -- The guard says that there was no table, the premise that there was
        -- one.
        rcases hor with hne | hsome
        · exact absurd (congrArg Touch.places heq) hne
        · rw [heq, Session.statement?_eq_some_iff] at found
          rw [hst, Option.some.injEq] at found
          exact absurd (by rw [found.1]; exact empty) hsome
      · rw [if_neg heq]
        exact ⟨rfl, fun _ => rfl, fun _ => rfl⟩
  -- The one move that marks a statement closed, and only the one that it names.
  | close id' =>
      rw [Session.closeStatement_statements]
      refine ⟨_, getElem?_modify_of_some _ _ id' id st hst, ?_⟩
      by_cases heq : id' = id
      · rw [if_pos heq]
        exact ⟨rfl, fun hne => absurd (congrArg Touch.close heq) hne, fun _ => rfl⟩
      · rw [if_neg heq]
        exact ⟨rfl, fun _ => rfl, fun _ => rfl⟩
  | release v =>
      rw [Session.releaseView_statements]
      exact ⟨st, hst, rfl, fun _ => rfl, fun _ => rfl⟩
  | handle connection sql => exact ⟨st, hst, rfl, fun _ => rfl, fun _ => rfl⟩
  | bareView index _ => exact ⟨st, hst, rfl, fun _ => rfl, fun _ => rfl⟩
  | share h => exact ⟨st, hst, rfl, fun _ => rfl, fun _ => rfl⟩
  | giveBack h =>
      rw [Session.release_statements]
      exact ⟨st, hst, rfl, fun _ => rfl, fun _ => rfl⟩
  | setRow h row => exact ⟨st, hst, rfl, fun _ => rfl, fun _ => rfl⟩

/-- A view keeps its handle and its index, and its share unless it is released.
    The only move that changes a view at all is the one that releases it; a new
    view is put behind those that are there. -/
theorem view_kept (a : Touch) (s t : Session) (m : Move a s t) (v : ViewId) (view : View)
    (hv : s.views[v]? = some view) :
    ∃ view', t.views[v]? = some view' ∧ view'.handle = view.handle ∧ view'.index = view.index ∧
      (a ≠ .release v → view'.holding = view.holding) := by
  cases m with
  | aside _ _ views _ =>
      rw [views]
      exact ⟨view, hv, rfl, rfl, fun _ => rfl⟩
  | call c _ => exact ⟨view, hv, rfl, rfl, fun _ => rfl⟩
  | prepare connection sql params => exact ⟨view, hv, rfl, rfl, fun _ => rfl⟩
  | view index _ _ => exact ⟨view, getElem?_concat_of_some _ _ _ _ hv, rfl, rfl, fun _ => rfl⟩
  | cursor h f => exact ⟨view, hv, rfl, rfl, fun _ => rfl⟩
  | row row _ _ => exact ⟨view, hv, rfl, rfl, fun _ => rfl⟩
  | flags id f _ => exact ⟨view, hv, rfl, rfl, fun _ => rfl⟩
  | places _ _ _ => exact ⟨view, hv, rfl, rfl, fun _ => rfl⟩
  | close id =>
      rw [Session.closeStatement_views]
      exact ⟨view, hv, rfl, rfl, fun _ => rfl⟩
  -- The one move that marks a view, and only the view that it names.
  | release v' =>
      rw [Session.releaseView_views]
      refine ⟨_, getElem?_modify_of_some _ _ v' v view hv, ?_⟩
      by_cases heq : v' = v
      · rw [if_pos heq]
        exact ⟨rfl, rfl, fun hne => absurd (congrArg Touch.release heq) hne⟩
      · rw [if_neg heq]
        exact ⟨rfl, rfl, fun _ => rfl⟩
  | handle connection sql => exact ⟨view, hv, rfl, rfl, fun _ => rfl⟩
  | bareView index _ =>
      exact ⟨view, getElem?_concat_of_some _ _ _ _ hv, rfl, rfl, fun _ => rfl⟩
  | share h => exact ⟨view, hv, rfl, rfl, fun _ => rfl⟩
  | giveBack h =>
      rw [Session.release_views]
      exact ⟨view, hv, rfl, rfl, fun _ => rfl⟩
  | setRow h row => exact ⟨view, hv, rfl, rfl, fun _ => rfl⟩

/-- What a touch leaves of a handle: the names of its columns unless its cursor
    is used, and its row unless that is set or the handle finalized. It never
    ceases to be finalized. -/
structure Leaves (a : Touch) (h : HandleId) (x y : Handle) : Prop where
  columns : a ≠ .cursor h → y.cursor.columns = x.cursor.columns
  row : a ≠ .row h → a ≠ .setRow h → y.finalized = false → y.row = x.row
  finalized : x.finalized = true → y.finalized = true

theorem Leaves.refl (a : Touch) (h : HandleId) (x : Handle) : Leaves a h x x :=
  ⟨fun _ => rfl, fun _ _ _ => rfl, id⟩

/-- A share more or less is nothing that the touch would have to leave. -/
theorem Leaves.counted (a : Touch) (h : HandleId) (x : Handle) (shares : Nat) :
    Leaves a h x { x with shares := shares } :=
  ⟨fun _ => rfl, fun _ _ _ => rfl, id⟩

/-- A change of one handle leaves the others, and is only to be looked at if it
    is this one. -/
theorem Leaves.modify {a : Touch} {h h' : HandleId} {handle : Handle} {handles : List Handle}
    (hh : handles[h]? = some handle) (f : Handle → Handle)
    (hf : h' = h → Leaves a h handle (f handle)) :
    ∃ handle', (handles.modify h' f)[h]? = some handle' ∧ Leaves a h handle handle' := by
  refine ⟨_, getElem?_modify_of_some _ f h' h handle hh, ?_⟩
  by_cases heq : h' = h
  · rw [if_pos heq]
    exact hf heq
  · rw [if_neg heq]
    exact .refl a h handle

/-- A handle keeps what a touch leaves of it. Shares may come and go in all of
    this, since a share changes neither the row nor the cursor as long as it is
    not the last one. -/
theorem handle_kept (a : Touch) (s t : Session) (m : Move a s t) (h : HandleId) (handle : Handle)
    (hh : s.handles[h]? = some handle) :
    ∃ handle', t.handles[h]? = some handle' ∧ Leaves a h handle handle' := by
  have hsame : Leaves a h handle handle := .refl a h handle
  -- A share less may finalize the handle; then its row does not matter any
  -- more.
  have released : ∀ (h' : HandleId) (u : Session), u.handles = s.handles →
      ∃ handle', (u.release h').handles[h]? = some handle' ∧ Leaves a h handle handle' := by
    intro h' u hu
    rcases Session.release_handle h' h u handle (by rw [hu]; exact hh) with
      ⟨handle', hh', hcol, hrow, hfin⟩
    exact ⟨handle', hh', fun _ => hcol, fun _ _ => hrow, hfin⟩
  cases m with
  | aside handles _ _ _ =>
      rw [handles]
      exact ⟨handle, hh, hsame⟩
  | prepare connection sql params =>
      exact ⟨handle, getElem?_concat_of_some _ _ _ _ hh, hsame⟩
  | handle connection sql => exact ⟨handle, getElem?_concat_of_some _ _ _ _ hh, hsame⟩
  -- A share more.
  | @view _ h' _ index _ _ => exact Leaves.modify hh _ fun _ => .counted _ h handle _
  | @bareView _ h' _ index _ => exact Leaves.modify hh _ fun _ => .counted _ h handle _
  | share h' => exact Leaves.modify hh _ fun _ => .counted _ h handle _
  -- What is not left shows in the touch.
  | cursor h' f =>
      refine Leaves.modify hh _ fun heq => ?_
      exact ⟨fun hne => absurd (congrArg Touch.cursor heq) hne, fun _ _ _ => rfl, id⟩
  | @row _ id st row _ _ =>
      refine Leaves.modify hh _ fun heq => ?_
      exact ⟨fun _ => rfl, fun hne => absurd (congrArg Touch.row heq) hne, fun hf => hf⟩
  | setRow h' row =>
      refine Leaves.modify hh _ fun heq => ?_
      exact ⟨fun _ => rfl, fun _ hne => absurd (congrArg Touch.setRow heq) hne, id⟩
  | close id =>
      rcases Session.closeStatement_cases id s with ⟨heq, _⟩ | ⟨st, _, _, heq⟩
      · rw [heq]
        exact ⟨handle, hh, hsame⟩
      · rw [heq]
        exact released st.handle _ rfl
  | release v =>
      rcases Session.releaseView_cases v s with ⟨heq, _⟩ | ⟨view, _, _, heq⟩
      · rw [heq]
        exact ⟨handle, hh, hsame⟩
      · rw [heq]
        exact released view.handle _ rfl
  | giveBack h' => exact released h' s rfl
  -- The rest is not about handles.
  | call c _ => exact ⟨handle, hh, hsame⟩
  | flags id f _ => exact ⟨handle, hh, hsame⟩
  | places _ _ _ => exact ⟨handle, hh, hsame⟩

/-- A statement is made together with the handle that it names, and keeps it. So
    the handles that the statements name are a list that only grows, and grows
    by a handle that nobody names yet. -/
theorem owners (a : Touch) (s t : Session) (m : Move a s t) :
    t.statements.map (·.handle) = s.statements.map (·.handle) ∧
        (t.handles.length = s.handles.length ∨
          a = .handle ∧ t.handles.length = s.handles.length + 1) ∨
      a = .prepare ∧
        t.statements.map (·.handle) = s.statements.map (·.handle) ++ [s.handles.length] ∧
        t.handles.length = s.handles.length + 1 := by
  cases m with
  | aside handles statements _ _ => exact Or.inl ⟨by rw [statements], Or.inl (by rw [handles])⟩
  | prepare connection sql params =>
      -- The one move that makes a statement, and its handle is the next one.
      exact Or.inr ⟨rfl, List.map_append, List.length_append⟩
  | flags id f kept =>
      exact Or.inl ⟨map_modify_same _ f (fun st => (kept st).1) _ _, Or.inl rfl⟩
  | @places _ id st handle found empty names =>
      exact Or.inl ⟨map_modify_same _ (fun st : Statement =>
        { st with places := some (firstPlaces handle.columnNames) }) (fun _ => rfl) _ _, Or.inl rfl⟩
  | close id =>
      refine Or.inl ⟨?_, Or.inl ?_⟩
      · rw [Session.closeStatement_statements, map_modify_same _ (fun st : Statement =>
          { st with holding := false }) (fun _ => rfl)]
      · rcases Session.closeStatement_cases id s with ⟨heq, _⟩ | ⟨st, _, _, heq⟩
        · rw [heq]
        · rw [heq, Session.release_handles_length]
          rfl
  | release v =>
      refine Or.inl ⟨by rw [Session.releaseView_statements], Or.inl ?_⟩
      rcases Session.releaseView_cases v s with ⟨heq, _⟩ | ⟨view, _, _, heq⟩
      · rw [heq]
      · rw [heq, Session.release_handles_length]
        rfl
  | handle connection sql => exact Or.inl ⟨rfl, Or.inr ⟨rfl, List.length_append⟩⟩
  | giveBack h =>
      exact Or.inl ⟨by rw [Session.release_statements],
        Or.inl (Session.release_handles_length h s)⟩
  | call c _ => exact Or.inl ⟨rfl, Or.inl rfl⟩
  | view index _ _ => exact Or.inl ⟨rfl, Or.inl (List.length_modify _ _ _)⟩
  | cursor h f => exact Or.inl ⟨rfl, Or.inl (List.length_modify _ _ _)⟩
  | row row _ _ => exact Or.inl ⟨rfl, Or.inl (List.length_modify _ _ _)⟩
  | bareView index _ => exact Or.inl ⟨rfl, Or.inl (List.length_modify _ _ _)⟩
  | share h => exact Or.inl ⟨rfl, Or.inl (List.length_modify _ _ _)⟩
  | setRow h row => exact Or.inl ⟨rfl, Or.inl (List.length_modify _ _ _)⟩

/-- Calls are never taken back. -/
theorem calls_grow (a : Touch) (s t : Session) (m : Move a s t) :
    ∃ more, t.calls = s.calls ++ more := by
  cases m with
  | aside _ _ _ calls => exact ⟨[], by rw [calls, List.append_nil]⟩
  | call c _ => exact ⟨[c], rfl⟩
  -- Beside the calls themselves, only the end of a handle makes one.
  | close id =>
      rcases Session.closeStatement_cases id s with ⟨heq, _⟩ | ⟨st, _, _, heq⟩
      · exact ⟨[], by rw [heq, List.append_nil]⟩
      · rw [heq]
        exact Session.release_calls st.handle (s.onStatement id _)
  | release v =>
      rcases Session.releaseView_cases v s with ⟨heq, _⟩ | ⟨view, _, _, heq⟩
      · exact ⟨[], by rw [heq, List.append_nil]⟩
      · rw [heq]
        exact Session.release_calls view.handle (s.onView v _)
  | giveBack h => exact Session.release_calls h s
  | _ => exact ⟨[], (List.append_nil s.calls).symm⟩

end Move

namespace Session

theorem Leads.refl (P : Touch → Prop) (s : Session) : s.Leads P s :=
  Relation.ReflTransGen.refl

theorem Leads.one {P : Touch → Prop} {s t : Session} (a : Touch) (ha : P a) (m : Move a s t) :
    s.Leads P t :=
  Relation.ReflTransGen.single ⟨a, ha, m⟩

theorem Leads.trans {P : Touch → Prop} {s t u : Session} (h1 : s.Leads P t) (h2 : t.Leads P u) :
    s.Leads P u :=
  Relation.ReflTransGen.trans h1 h2

/-- A sequence of moves can be described more loosely. -/
theorem Leads.mono {P Q : Touch → Prop} {s t : Session} (h : s.Leads P t) (hPQ : ∀ a, P a → Q a) :
    s.Leads Q t := by
  refine Relation.ReflTransGen.mono ?_ s t h
  rintro u w ⟨a, ha, m⟩
  exact ⟨a, hPQ a ha, m⟩

/-- What every single move preserves, a sequence of moves preserves. -/
theorem Leads.preserves {P : Touch → Prop} {s t : Session} (I : Session → Prop)
    (hstep : ∀ a u w, P a → Move a u w → I u → I w) (h : s.Leads P t) (hs : I s) : I t := by
  induction h with
  | refl => exact hs
  | tail _ hm ih =>
      rcases hm with ⟨a, ha, m⟩
      exact hstep a _ _ ha m ih

/-- What a sequence of moves does to a statement: it keeps its handle, its share
    if no move closes it, and its name table if that is there or if no move
    fills it. -/
theorem Leads.statement_kept {P : Touch → Prop} {s t : Session} (h : s.Leads P t)
    (id : StatementId) (st : Statement) (hst : s.statements[id]? = some st) :
    ∃ st', t.statements[id]? = some st' ∧ st'.handle = st.handle ∧
      (¬ P (.close id) → st'.holding = st.holding) ∧
      (¬ P (.places id) ∨ st.places ≠ none → st'.places = st.places) := by
  induction h with
  | refl => exact ⟨st, hst, rfl, fun _ => rfl, fun _ => rfl⟩
  | tail _ hm ih =>
      rcases hm with ⟨a, ha, m⟩
      rcases ih with ⟨st1, hst1, hh1, hs1, hp1⟩
      rcases m.statement_kept a _ _ id st1 hst1 with ⟨st2, hst2, hh2, hs2, hp2⟩
      -- The touch of the last move meets the condition, so it is not one that
      -- was excluded.
      refine ⟨st2, hst2, by rw [hh2, hh1], fun hc => ?_, fun hp => ?_⟩
      · rw [hs2 (fun heq => hc (by rw [← heq]; exact ha)), hs1 hc]
      · -- A table that is there stays there, so the second move finds it as
        -- well.
        have h1 := hp1 hp
        rw [hp2, h1]
        rcases hp with hc | hc
        · exact Or.inl (fun heq => hc (by rw [← heq]; exact ha))
        · exact Or.inr (by rw [h1]; exact hc)

/-- What a sequence of moves does to a view: it keeps its handle and its index,
    and its share if no move releases it. -/
theorem Leads.view_kept {P : Touch → Prop} {s t : Session} (h : s.Leads P t)
    (v : ViewId) (view : View) (hv : s.views[v]? = some view) :
    ∃ view', t.views[v]? = some view' ∧ view'.handle = view.handle ∧ view'.index = view.index ∧
      (¬ P (.release v) → view'.holding = view.holding) := by
  induction h with
  | refl => exact ⟨view, hv, rfl, rfl, fun _ => rfl⟩
  | tail _ hm ih =>
      rcases hm with ⟨a, ha, m⟩
      rcases ih with ⟨view1, hv1, hh1, hi1, hs1⟩
      rcases m.view_kept a _ _ v view1 hv1 with ⟨view2, hv2, hh2, hi2, hs2⟩
      refine ⟨view2, hv2, by rw [hh2, hh1], by rw [hi2, hi1], fun hc => ?_⟩
      rw [hs2 (fun heq => hc (by rw [← heq]; exact ha)), hs1 hc]

/-- What a sequence of moves does to a handle. The row is kept only if the
    handle is not finalized in the end, for the end of a handle takes it
    away. -/
theorem Leads.handle_kept {P : Touch → Prop} {s t : Session} (hl : s.Leads P t)
    (h : HandleId) (handle : Handle) (hh : s.handles[h]? = some handle) :
    ∃ handle', t.handles[h]? = some handle' ∧
      (¬ P (.cursor h) → handle'.cursor.columns = handle.cursor.columns) ∧
      (¬ P (.row h) → ¬ P (.setRow h) → handle'.finalized = false → handle'.row = handle.row) ∧
      (handle.finalized = true → handle'.finalized = true) := by
  induction hl with
  | refl => exact ⟨handle, hh, fun _ => rfl, fun _ _ _ => rfl, fun hf => hf⟩
  | tail _ hm ih =>
      rcases hm with ⟨a, ha, m⟩
      rcases ih with ⟨x, hx, hcol1, hrow1, hfin1⟩
      rcases m.handle_kept a _ _ h x hx with ⟨y, hy, hcol2, hrow2, hfin2⟩
      refine ⟨y, hy, fun hc => ?_, fun hr hs hf => ?_, fun hf => hfin2 (hfin1 hf)⟩
      · rw [hcol2 (fun heq => hc (by rw [← heq]; exact ha)), hcol1 hc]
      · -- A handle that is not finalized in the end was not finalized on the
        -- way.
        have hmid : x.finalized = false := by
          rcases hx' : x.finalized with _ | _
          · rfl
          · exact absurd hf (by rw [hfin2 hx']; exact Bool.noConfusion)
        rw [hrow2 (fun heq => hr (by rw [← heq]; exact ha))
          (fun heq => hs (by rw [← heq]; exact ha)) hf, hrow1 hr hs hmid]

theorem Leads.views_le {P : Touch → Prop} {s t : Session} (h : s.Leads P t) :
    s.views.length ≤ t.views.length := by
  rcases Nat.eq_zero_or_pos s.views.length with hz | hpos
  · omega
  · -- The last view is still there.
    rcases h.view_kept (s.views.length - 1) _
      (List.getElem?_eq_getElem (by omega)) with ⟨view', hv', -⟩
    have hlt := (List.getElem?_eq_some_iff.mp hv').1
    omega

theorem Leads.calls_grow {P : Touch → Prop} {s t : Session} (h : s.Leads P t) :
    ∃ more, t.calls = s.calls ++ more := by
  induction h with
  | refl => exact ⟨[], (List.append_nil s.calls).symm⟩
  | tail _ hm ih =>
      rcases hm with ⟨a, _, m⟩
      rcases ih with ⟨more, hmore⟩
      rcases m.calls_grow a _ _ with ⟨last, hlast⟩
      exact ⟨more ++ last, by rw [hlast, hmore, List.append_assoc]⟩

/-- A run of permitted commands leads from reachable to reachable sessions. -/
theorem reachable_run (e : Engine) (allowed : Command → Prop) (cs : List Command) (s : Session)
    (hs : Reachable e allowed s) (hcs : ∀ c ∈ cs, allowed c) :
    Reachable e allowed (s.run e cs).2 := by
  -- The session is generalized, since the rest of the run starts in another
  -- one.
  induction cs generalizing s with
  | nil => exact hs
  | cons c rest ih =>
      have hc : allowed c := hcs c List.mem_cons_self
      exact ih (s.perform e c).2 (hs.perform c hc)
        (fun c' hc' => hcs c' (List.mem_cons_of_mem _ hc'))

end Session

end RowScope
