import RowScope.Proofs.Session.Move

/-!
# Rest

What becomes of a statement and of a handle while nobody steps the one or uses
the other. Both may still change: a statement fills its name table and may be
closed, and a handle counts its shares and comes to its end with the last one.
That is all, however, so everything that the next step depends on is either the
same as before or gone for good.

The frame of a command says which statements and handles are at rest. What is
proved here says what that is worth, for whole statements and handles and not
field by field.

## Main definitions

* `Statement.Rests`: A statement that was not stepped.
* `Handle.Settles`: A handle that was neither stepped nor used directly.

## Theorems

* `Handle.Settles.eq_of_open`: A handle that did not end has the same cursor and
  row.
* `Move.statement_rests`, `Move.handle_settles`: What one move leaves.
* `Leads.rests`: The same for a sequence of moves, for a statement with its
  handle.
* `Leads.surroundings`: Engine and connections change only beside handles,
  statements and views.
* `Leads.statements_none`: A statement is made by being prepared.
-/

namespace RowScope

/-- A statement that was not stepped: its name table may have been filled, and
    it may have been closed. -/
structure Statement.Rests (x y : Statement) : Prop where
  handle : y.handle = x.handle
  sql : y.sql = x.sql
  params : y.params = x.params
  started : y.started = x.started
  done : y.done = x.done
  closed : y.holding = true → x.holding = true

/-- A handle that was neither stepped nor used directly: its shares were
    counted, or it ended. -/
inductive Handle.Settles (x : Handle) : Handle → Prop
  | counted (shares : Nat) : x.Settles { x with shares := shares }
  | ended {y : Handle} (finalized : y.finalized = true) (row : y.row = none) (closed : Bool)
      (cursor : y.cursor = { x.cursor with closed := closed }) : x.Settles y

namespace Statement.Rests

theorem refl (x : Statement) : x.Rests x :=
  ⟨rfl, rfl, rfl, rfl, rfl, id⟩

theorem trans {x y z : Statement} (h1 : x.Rests y) (h2 : y.Rests z) : x.Rests z :=
  ⟨h2.handle.trans h1.handle, h2.sql.trans h1.sql, h2.params.trans h1.params,
    h2.started.trans h1.started, h2.done.trans h1.done, fun hz => h1.closed (h2.closed hz)⟩

end Statement.Rests

namespace Handle.Settles

theorem refl (x : Handle) : x.Settles x := .counted x.shares

theorem finalized {x y : Handle} (h : x.Settles y) (hx : x.finalized = true) :
    y.finalized = true := by
  cases h with
  | counted shares => exact hx
  | ended finalized _ _ _ => exact finalized

/-- A handle that did not end has the same cursor and the same row. -/
theorem eq_of_open {x y : Handle} (h : x.Settles y) (hy : y.finalized = false) :
    ∃ shares, y = { x with shares := shares } := by
  cases h with
  | counted shares => exact ⟨shares, rfl⟩
  | ended finalized _ _ _ =>
      rw [finalized] at hy
      exact Bool.noConfusion hy

theorem row_none {x y : Handle} (h : x.Settles y) (hx : x.row = none) : y.row = none := by
  cases h with
  | counted shares => exact hx
  | ended _ row _ _ => exact row

/-- What settles twice has settled. A count after the end is that of a handle
    that has ended. -/
theorem trans {x y z : Handle} (h1 : x.Settles y) (h2 : y.Settles z) : x.Settles z := by
  cases h2 with
  | ended finalized row closed cursor =>
      refine .ended finalized row closed ?_
      cases h1 with
      | counted shares => exact cursor
      | ended _ _ closed' cursor' => rw [cursor, cursor']
  | counted shares =>
      cases h1 with
      | counted shares' => exact .counted shares
      | ended finalized row closed cursor => exact .ended finalized row closed cursor

end Handle.Settles

namespace Session

/-- Giving back a share of whatever handle settles every handle. -/
theorem release_settles (h h' : HandleId) (s : Session) (handle : Handle)
    (hh : s.handles[h']? = some handle) :
    ∃ handle', (s.release h).handles[h']? = some handle' ∧ handle.Settles handle' := by
  rcases hx : s.handles[h]? with _ | x
  · rw [release_missing h s hx]
    exact ⟨handle, hh, .refl handle⟩
  · -- Ignored, counted, or the end. In the last two it matters whether it is
    -- this handle.
    rcases release_cases h s x hx with ⟨-, hs, -⟩ | ⟨-, -, hs, -⟩ | ⟨-, -, -, f, hs, hf⟩
    · rw [hs]
      exact ⟨handle, hh, .refl handle⟩
    · rw [hs, getElem?_modify_of_some _ _ h h' handle hh]
      refine ⟨_, rfl, ?_⟩
      by_cases heq : h = h'
      · rw [if_pos heq]
        exact .counted _
      · rw [if_neg heq]
        exact .refl handle
    · rw [hs, getElem?_modify_of_some _ _ h h' handle hh]
      refine ⟨_, rfl, ?_⟩
      by_cases heq : h = h'
      · rw [if_pos heq]
        rcases hf handle with ⟨-, hfin, hrow, closed, hcursor⟩
        exact .ended hfin hrow closed hcursor
      · rw [if_neg heq]
        exact .refl handle

/-- The end of a handle is no business of the engine's past or of the
    connections. -/
theorem release_surroundings (h : HandleId) (s : Session) :
    (s.release h).past = s.past ∧ (s.release h).connections = s.connections := by
  unfold release
  split
  · exact ⟨rfl, rfl⟩
  · split
    · exact ⟨rfl, rfl⟩
    · split
      · rename_i handle _ _ _
        rcases hc : s.isConnected handle.cursor.connection with _ | _
        · unfold isConnected at hc
          simp only [finalize, closeCursor, isConnected, called, noted, onHandle, hc,
            Bool.false_eq_true, if_false, and_self]
        · unfold isConnected at hc
          simp only [finalize, closeCursor, isConnected, called, noted, onHandle, hc, if_true,
            and_self]
      · exact ⟨rfl, rfl⟩

end Session

namespace Move

/-- A statement whose flags are left alone rests. -/
theorem statement_rests (a : Touch) (s t : Session) (m : Move a s t) (id : StatementId)
    (ha : a ≠ .flags id) (st : Statement) (hst : s.statements[id]? = some st) :
    ∃ st', t.statements[id]? = some st' ∧ st.Rests st' := by
  cases m with
  | aside _ statements _ _ =>
      rw [statements]
      exact ⟨st, hst, .refl st⟩
  | prepare connection sql params => exact ⟨st, getElem?_concat_of_some _ _ _ _ hst, .refl st⟩
  | flags id' f kept =>
      have hne : id' ≠ id := fun heq => ha (congrArg Touch.flags heq)
      refine ⟨_, getElem?_modify_of_some _ f id' id st hst, ?_⟩
      rw [if_neg hne]
      exact .refl st
  -- A name table may grow and a statement may be closed, and both leave the
  -- flags.
  | @places _ id' _ handle _ _ _ =>
      refine ⟨_, getElem?_modify_of_some _ _ id' id st hst, ?_⟩
      by_cases heq : id' = id
      · rw [if_pos heq]
        exact ⟨rfl, rfl, rfl, rfl, rfl, fun h => h⟩
      · rw [if_neg heq]
        exact .refl st
  | close id' =>
      rw [Session.closeStatement_statements]
      refine ⟨_, getElem?_modify_of_some _ _ id' id st hst, ?_⟩
      by_cases heq : id' = id
      · rw [if_pos heq]
        exact ⟨rfl, rfl, rfl, rfl, rfl, fun h => Bool.noConfusion h⟩
      · rw [if_neg heq]
        exact .refl st
  | release v =>
      rw [Session.releaseView_statements]
      exact ⟨st, hst, .refl st⟩
  | giveBack h =>
      rw [Session.release_statements]
      exact ⟨st, hst, .refl st⟩
  | _ => exact ⟨st, hst, .refl st⟩

/-- A handle whose cursor is not used and whose row is not set settles. The
    other moves change other handles, or the shares of this one, or they end
    it. -/
theorem handle_settles (a : Touch) (s t : Session) (m : Move a s t) (h : HandleId)
    (hcursor : a ≠ .cursor h) (hrow : a ≠ .row h) (hset : a ≠ .setRow h) (handle : Handle)
    (hh : s.handles[h]? = some handle) :
    ∃ handle', t.handles[h]? = some handle' ∧ handle.Settles handle' := by
  -- A change of another handle, and of the shares of this one.
  have other : ∀ (h' : HandleId) (f : Handle → Handle), h' ≠ h →
      ∃ handle', (s.handles.modify h' f)[h]? = some handle' ∧ handle.Settles handle' := by
    intro h' f hne
    refine ⟨_, getElem?_modify_of_some _ f h' h handle hh, ?_⟩
    rw [if_neg hne]
    exact .refl handle
  have shared : ∀ h', ∃ handle', (s.share h').handles[h]? = some handle' ∧
      handle.Settles handle' := by
    intro h'
    by_cases heq : h' = h
    · refine ⟨_, getElem?_modify_of_some _ _ h' h handle hh, ?_⟩
      rw [if_pos heq]
      exact .counted _
    · exact other h' _ heq
  cases m with
  | aside handles _ _ _ =>
      rw [handles]
      exact ⟨handle, hh, .refl handle⟩
  | prepare connection sql params =>
      exact ⟨handle, getElem?_concat_of_some _ _ _ _ hh, .refl handle⟩
  | handle connection sql => exact ⟨handle, getElem?_concat_of_some _ _ _ _ hh, .refl handle⟩
  | @view _ h' _ _ _ _ => exact shared h'
  | @bareView _ h' _ _ _ => exact shared h'
  | share h' => exact shared h'
  | cursor h' f => exact other h' _ (fun heq => hcursor (congrArg Touch.cursor heq))
  | @row _ _ st _ _ _ => exact other st.handle _ (fun heq => hrow (congrArg Touch.row heq))
  | setRow h' row => exact other h' _ (fun heq => hset (congrArg Touch.setRow heq))
  | close id =>
      rcases Session.closeStatement_cases id s with ⟨heq, _⟩ | ⟨st, _, _, heq⟩
      · rw [heq]
        exact ⟨handle, hh, .refl handle⟩
      · rw [heq]
        exact Session.release_settles st.handle h _ handle hh
  | release v =>
      rcases Session.releaseView_cases v s with ⟨heq, _⟩ | ⟨view, _, _, heq⟩
      · rw [heq]
        exact ⟨handle, hh, .refl handle⟩
      · rw [heq]
        exact Session.release_settles view.handle h _ handle hh
  | giveBack h' => exact Session.release_settles h' h s handle hh
  | _ => exact ⟨handle, hh, .refl handle⟩

/-- Only a move aside of all objects concerns the engine's past or the
    connections. -/
theorem surroundings (a : Touch) (s t : Session) (m : Move a s t) (ha : a ≠ .aside) :
    t.past = s.past ∧ t.connections = s.connections := by
  cases m with
  | aside _ _ _ _ => exact absurd rfl ha
  -- Closing and releasing end a handle at most, which is neither.
  | close id =>
      rcases Session.closeStatement_cases id s with ⟨heq, _⟩ | ⟨st, _, _, heq⟩
      · rw [heq]
        exact ⟨rfl, rfl⟩
      · rw [heq]
        exact Session.release_surroundings st.handle _
  | release v =>
      rcases Session.releaseView_cases v s with ⟨heq, _⟩ | ⟨view, _, _, heq⟩
      · rw [heq]
        exact ⟨rfl, rfl⟩
      · rw [heq]
        exact Session.release_surroundings view.handle _
  | giveBack h => exact Session.release_surroundings h s
  | _ => exact ⟨rfl, rfl⟩

end Move

namespace Session

theorem Leads.statement_rests {P : Touch → Prop} {s t : Session} (hl : s.Leads P t)
    (id : StatementId) (hP : ¬ P (.flags id)) (st : Statement) (hst : s.statements[id]? = some st) :
    ∃ st', t.statements[id]? = some st' ∧ st.Rests st' := by
  induction hl with
  | refl => exact ⟨st, hst, .refl st⟩
  | tail _ hm ih =>
      rcases hm with ⟨a, ha, m⟩
      rcases ih with ⟨st1, hst1, h1⟩
      rcases m.statement_rests a _ _ id (fun heq => hP (by rw [← heq]; exact ha)) st1 hst1 with
        ⟨st2, hst2, h2⟩
      exact ⟨st2, hst2, h1.trans h2⟩

/-- A handle that no move uses settles. -/
theorem Leads.handle_settles {P : Touch → Prop} {s t : Session} (hl : s.Leads P t) (h : HandleId)
    (hcursor : ¬ P (.cursor h)) (hrow : ¬ P (.row h)) (hset : ¬ P (.setRow h)) (handle : Handle)
    (hh : s.handles[h]? = some handle) :
    ∃ handle', t.handles[h]? = some handle' ∧ handle.Settles handle' := by
  induction hl with
  | refl => exact ⟨handle, hh, .refl handle⟩
  | tail _ hm ih =>
      rcases hm with ⟨a, ha, m⟩
      rcases ih with ⟨x, hx, h1⟩
      rcases m.handle_settles a _ _ h (fun heq => hcursor (by rw [← heq]; exact ha))
        (fun heq => hrow (by rw [← heq]; exact ha)) (fun heq => hset (by rw [← heq]; exact ha))
        x hx with ⟨y, hy, h2⟩
      exact ⟨y, hy, h1.trans h2⟩

/-- Engine and connections change only beside handles, statements and views. -/
theorem Leads.surroundings {P : Touch → Prop} {s t : Session} (hl : s.Leads P t)
    (hP : ¬ P .aside) : t.past = s.past ∧ t.connections = s.connections := by
  induction hl with
  | refl => exact ⟨rfl, rfl⟩
  | tail _ hm ih =>
      rcases hm with ⟨a, ha, m⟩
      rcases m.surroundings a _ _ (fun heq => hP (by rw [← heq]; exact ha)) with ⟨hpast, hconn⟩
      exact ⟨hpast.trans ih.1, hconn.trans ih.2⟩

/-- A statement and its handle, if nobody steps the one or uses the other. This
    is the form in which the frame of a command is used: it says all that is
    left of both, together. -/
theorem Leads.rests {P : Touch → Prop} {s t : Session} (hl : s.Leads P t) (id : StatementId)
    (st : Statement) (handle : Handle) (found : s.statement? id = some (st, handle))
    (hflags : ¬ P (.flags id)) (hcursor : ¬ P (.cursor st.handle)) (hrow : ¬ P (.row st.handle))
    (hset : ¬ P (.setRow st.handle)) :
    ∃ st' handle', t.statement? id = some (st', handle') ∧ st.Rests st' ∧
      handle.Settles handle' := by
  rcases (statement?_eq_some_iff s id st handle).mp found with ⟨hst, hh⟩
  rcases hl.statement_rests id hflags st hst with ⟨st', hst', hrests⟩
  rcases hl.handle_settles st.handle hcursor hrow hset handle hh with ⟨handle', hh', hsettles⟩
  refine ⟨st', handle', (statement?_eq_some_iff t id st' handle').mpr ⟨hst', ?_⟩, hrests, hsettles⟩
  rw [hrests.handle]
  exact hh'

/-- A statement that was not there is not there unless one was prepared. -/
theorem Leads.statements_none {P : Touch → Prop} {s t : Session} (hl : s.Leads P t)
    (hP : ¬ P .prepare) (id : StatementId) (hs : s.statements[id]? = none) :
    t.statements[id]? = none := by
  induction hl with
  | refl => exact hs
  | @tail u w _ hm ih =>
      rcases hm with ⟨a, ha, m⟩
      rcases m.owners a u w with ⟨hmap, -⟩ | ⟨rfl, -, -⟩
      · -- As many statements as before, for as many handles.
        have hlen := congrArg List.length hmap
        rw [List.length_map, List.length_map] at hlen
        rw [List.getElem?_eq_none_iff] at ih ⊢
        omega
      · exact absurd ha hP

end Session

end RowScope
