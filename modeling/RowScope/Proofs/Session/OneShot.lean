import RowScope.Proofs.Session.Effects
import RowScope.Proofs.Session.Standing

/-!
# Queries for One Value

A query for one value makes a statement, steps it once, takes a view of the
first column, and closes the statement. What is left of it is the view, or
nothing: there are five ways for it to fail, and none of them leaves the cursor
open.

What makes this work is the order of two shares. The view takes its share before
the statement gives back its own, so the handle goes on with one share, which is
the view's. If there is no view, the share of the statement is the last one, and
the cursor is closed with it. So the difference between success and failure is
only whether a view was made, and not where the failure came from; all that has
to be known of a failure is that the statement is still open and alone on its
handle. This is what it is to be `Paused`, and the six kinds of steps are looked
at for this and no other reason.

Nothing is asked of the engine, except that the database is open. The connection
in use is then open as well, so that the engine is reached.

## Main definitions

* `Engine.firstRow`: The row that a query is about, or why there is none.
* `Session.Housed`: Views and closings are of handles that were made.
* `Session.Paused`: A query after its step.
* `Session.Spent`, `Session.Held`: What a query leaves behind if nothing is
  held, or the view is.
* `Session.QueriesOnce`: What a query answers, and what it leaves behind.

## Theorems

* `reachable_housed`: Nothing is held of a handle that was not made, and it was
  not closed.
* `closeStatement_effect`, `releaseView_effect`: What the handle becomes when a
  share is given back.
* `query_pauses`: The step of a query.
* `queryFirst_leaves`: A query for one value.
* `queries_leak_nothing`: The same for the two queries that only read their
  view.
-/

namespace RowScope

/-- The row that a query for one value is about, or why there is none. -/
def Engine.firstRow (e : Engine) (past : List Request) (sql : Sql) (params : Params) :
    Except Fault Row :=
  match e.execute past sql params with
  | .error x => .error (.ofEngine x)
  | .ok a =>
    match a.rows with
    | [] => .error (.access .noCurrentRow)
    | .error x :: _ => .error (.ofEngine x)
    | .ok row :: _ =>
      if a.columns.getD [] = [] then .error (.access (.columnIndex 0 0)) else .ok row

/-- The first cell of a row, or why it cannot be read. -/
def firstCell : Row → Except Fault Cell
  | [] => .error .beyondRow
  | cell :: _ => .ok cell

/-- The row that the first column is read from, or why there is none. -/
def Handle.first (handle : Handle) : Except Fault Row :=
  match handle.row with
  | none => .error (.access .noCurrentRow)
  | some row =>
    if handle.columnNames = [] then .error (.access (.columnIndex 0 0)) else .ok row

theorem Handle.row_of_first (handle : Handle) (row : Row) (h : handle.first = .ok row) :
    handle.row = some row := by
  unfold first at h
  rcases hrow : handle.row with _ | r
  · rw [hrow] at h
    cases h
  · rw [hrow] at h
    simp only [] at h
    split at h
    · cases h
    · rw [Except.ok.inj h]

/-- What a query comes to after a step with this answer, which has left its
    handle so. -/
def Handle.outcome (handle : Handle) : Except Fault Bool → Except Fault Row
  | .error f => .error f
  | .ok _ => handle.first

namespace Session

/-! ### Handles that were not made -/

/-- Views and closings are of handles that were made. -/
structure Housed (s : Session) : Prop where
  views : ∀ view ∈ s.views, view.handle < s.handles.length
  calls : ∀ h, .finalize h ∈ s.calls → h < s.handles.length

theorem Housed.of_same {s t : Session} (hs : s.Housed) (views : t.views = s.views)
    (calls : t.calls = s.calls) (handles : s.handles.length ≤ t.handles.length) : t.Housed := by
  constructor
  · intro view hview
    rw [views] at hview
    exact Nat.lt_of_lt_of_le (hs.views view hview) handles
  · intro h hh
    rw [calls] at hh
    exact Nat.lt_of_lt_of_le (hs.calls h hh) handles

/-- A share that is given back may close a cursor, which is that of a handle
    that was made; one that was not made has no shares. -/
theorem Housed.release {s : Session} (hs : s.Housed) (h : HandleId) : (s.release h).Housed := by
  rcases hx : s.handles[h]? with _ | x
  · rw [release_missing h s hx]
    exact hs
  · have hlength := release_handles_length h s
    constructor
    · intro view hview
      rw [release_views] at hview
      rw [hlength]
      exact hs.views view hview
    · intro g hg
      rw [release_parts] at hg
      rw [hlength]
      rcases List.mem_append.mp hg with hg | hg
      · exact hs.calls g hg
      · -- The handle that ends was made.
        have heq : .finalize g = Call.finalize h := by
          split at hg
          · exact List.mem_singleton.mp hg
          · cases hg
        rw [Call.finalize.inj heq]
        exact (List.getElem?_eq_some_iff.mp hx).1

/-- A view that is made of a handle that was made. -/
theorem Housed.newView {s : Session} (hs : s.Housed) (h : HandleId) (index : Int) (x : Handle)
    (hx : s.handles[h]? = some x) : (s.newView h index).2.Housed := by
  have hlength : (s.newView h index).2.handles.length = s.handles.length := List.length_modify ..
  constructor
  · intro view hview
    rw [hlength]
    rcases List.mem_append.mp hview with hview | hview
    · exact hs.views view hview
    · rw [List.mem_singleton.mp hview]
      exact (List.getElem?_eq_some_iff.mp hx).1
  · intro g hg
    rw [hlength]
    exact hs.calls g hg

/-- Every move keeps to handles that were made. There are four kinds of moves to
    look at: those that make a view, make a handle, call something, or give back
    a share; all others leave both lists as they are. -/
theorem Housed.move (a : Touch) (s t : Session) (m : Move a s t) (hs : s.Housed) : t.Housed := by
  -- A change of one handle, and a new one.
  have changed : ∀ (h : HandleId) (f : Handle → Handle), (s.onHandle h f).Housed :=
    fun h f => hs.of_same rfl rfl (Nat.le_of_eq (List.length_modify ..).symm)
  have made : ∀ x : Handle, s.handles.length ≤ (s.handles ++ [x]).length :=
    fun x => by rw [List.length_append]; exact Nat.le_add_right _ _
  cases m with
  | aside handles statements views calls =>
      exact hs.of_same views calls (Nat.le_of_eq (congrArg List.length handles).symm)
  | call c open_ =>
      refine ⟨hs.views, ?_⟩
      intro h hh
      rcases List.mem_append.mp hh with hh | hh
      · exact hs.calls h hh
      · exact absurd (List.mem_singleton.mp hh).symm (open_ h)
  | prepare connection sql params => exact hs.of_same rfl rfl (made _)
  | view index found row => exact hs.newView _ index _ found
  | cursor h f => exact changed h _
  | row row found holding => exact changed _ _
  | flags id f kept => exact hs.of_same rfl rfl (Nat.le_refl _)
  | places found empty names => exact hs.of_same rfl rfl (Nat.le_refl _)
  | close id =>
      rcases closeStatement_cases id s with ⟨heq, -⟩ | ⟨st, -, -, heq⟩
      · rw [heq]
        exact hs
      · have hidle : (s.onStatement id fun st => { st with holding := false }).Housed :=
          hs.of_same rfl rfl (Nat.le_refl _)
        rw [heq]
        exact hidle.release st.handle
  | release v =>
      rcases releaseView_cases v s with ⟨heq, -⟩ | ⟨view, -, -, heq⟩
      · rw [heq]
        exact hs
      · have hidle : (s.onView v fun view => { view with holding := false }).Housed := by
          refine ⟨?_, hs.calls⟩
          intro other hother
          -- Every view looks at the same handle as before.
          have hmem := List.mem_map_of_mem (f := View.handle) hother
          rw [onView, map_modify_same View.handle (fun view => { view with holding := false })
            (fun _ => rfl)] at hmem
          rcases List.mem_map.mp hmem with ⟨old, hold, hsame⟩
          rw [← hsame]
          exact hs.views old hold
        rw [heq]
        exact hidle.release view.handle
  | handle connection sql => exact hs.of_same rfl rfl (made _)
  | bareView index found => exact hs.newView _ index _ found
  | share h => exact changed h _
  | giveBack h => exact hs.release h
  | setRow h row => exact changed h _

/-- Nothing is held of a handle that was not made, and it was not closed,
    wherever commands have led. -/
theorem reachable_housed (e : Engine) (allowed : Command → Prop) (s : Session)
    (hs : Reachable e allowed s) : s.Housed :=
  reachable_preserves e allowed Housed
    (fun _ _ _ => ⟨fun _ hv => absurd hv List.not_mem_nil, fun _ hc => absurd hc List.not_mem_nil⟩)
    (fun _ _ a u w _ _ m hu => hu.move a u w m) s hs

/-- Of the handle that is made next nothing is held, and it was not closed. So
    what is counted for it afterwards was done by the query itself. -/
theorem Housed.next {s : Session} (hs : s.Housed) :
    s.views.countP (View.holds s.handles.length) = 0 ∧
      s.calls.countP (Call.closes s.handles.length) = 0 := by
  constructor
  · rw [List.countP_eq_zero]
    intro view hview hholds
    simp only [View.holds, Bool.and_eq_true, beq_iff_eq] at hholds
    exact absurd hholds.2 (Nat.ne_of_lt (hs.views view hview))
  · rw [List.countP_eq_zero]
    intro k hk hcloses
    cases k with
    | finalize h =>
        have heq : h = s.handles.length := by simpa only [Call.closes, beq_iff_eq] using hcloses
        exact absurd heq (Nat.ne_of_lt (hs.calls h hk))
    | _ => cases hcloses

/-! ### Giving back the shares -/

/-- A statement that gives back its share takes it from its handle, and calls
    for the cursor to be closed if it was the last one. -/
theorem closeStatement_effect (s : Session) (id : StatementId) (st : Statement) (x : Handle)
    (hst : s.statements[id]? = some st) (holding : st.holding = true)
    (hx : s.handles[st.handle]? = some x) :
    (s.closeStatement id).handles[st.handle]? =
        some (x.lessOne (s.isConnected x.cursor.connection)) ∧
      (s.closeStatement id).calls =
        s.calls ++ (if x.isLast then [.finalize st.handle] else []) := by
  rcases closeStatement_cases id s with ⟨-, hidle⟩ | ⟨st', hst', -, heq⟩
  · have hnot := hidle st hst
    rw [holding] at hnot
    cases hnot
  · obtain rfl := Option.some.inj (hst.symm.trans hst')
    have hsame : (s.onStatement id fun st => { st with holding := false }).handles[st.handle]? =
        some x := hx
    rw [heq, release_handles, release_parts, if_pos rfl, hsame]
    exact ⟨rfl, rfl⟩

/-- A view that gives back its share takes it from its handle, in just the same
    way. -/
theorem releaseView_effect (s : Session) (v : ViewId) (view : View) (x : Handle)
    (hv : s.views[v]? = some view) (holding : view.holding = true)
    (hx : s.handles[view.handle]? = some x) :
    (s.releaseView v).handles[view.handle]? =
        some (x.lessOne (s.isConnected x.cursor.connection)) ∧
      (s.releaseView v).calls =
        s.calls ++ (if x.isLast then [.finalize view.handle] else []) := by
  rcases releaseView_cases v s with ⟨-, hidle⟩ | ⟨view', hv', -, heq⟩
  · have hnot := hidle view hv
    rw [holding] at hnot
    cases hnot
  · obtain rfl := Option.some.inj (hv.symm.trans hv')
    have hsame : (s.onView v fun view => { view with holding := false }).handles[view.handle]? =
        some x := hx
    rw [heq, release_handles, release_parts, if_pos rfl, hsame]
    exact ⟨rfl, rfl⟩

/-! ### The step -/

/-- What a query calls for its row: an execution, and a fetch unless that has
    failed. -/
def queryCalls (e : Engine) (s : Session) (sql : Sql) (params : Params) : List Call :=
  .execute s.handles.length sql params ::
    if (e.execute s.past sql params).isOk then [.fetch s.handles.length] else []

/-- A query after its step. Its statement is open, and alone on its handle. -/
structure Paused (e : Engine) (s : Session) (sql : Sql) (params : Params) (u : Session)
    (handle : Handle) : Prop where
  statement : ∃ st, u.statements[s.statements.length]? = some st ∧
    st.handle = s.handles.length ∧ st.holding = true
  found : u.handles[s.handles.length]? = some handle
  shares : handle.shares = 1
  live : handle.finalized = false
  usable : handle.cursor.closed = false
  connected : u.isConnected handle.cursor.connection = true
  views : u.views = s.views
  calls : u.calls = s.calls ++ s.queryCalls e sql params

end Session

namespace Handle

/-- The last share is the end of a handle: its cursor is closed, and its row is
    gone. -/
theorem lessOne_last (x : Handle) (live : x.finalized = false) (one : x.shares = 1) :
    x.isLast = true ∧ (x.lessOne true).shares = 0 ∧ (x.lessOne true).finalized = true ∧
      (x.lessOne true).row = none ∧ (x.lessOne true).cursor.closed = true := by
  have hle : x.shares ≤ 1 := Nat.le_of_eq one
  simp only [isLast, lessOne, live, hle, Bool.not_false, decide_true, Bool.and_self,
    Bool.false_eq_true, if_false, if_true, Bool.or_true, and_self]

/-- A share that is not the last one takes nothing with it. -/
theorem lessOne_spare (x : Handle) (connected : Bool) (live : x.finalized = false)
    (spare : 1 < x.shares) :
    x.isLast = false ∧ x.lessOne connected = { x with shares := x.shares - 1 } := by
  have hlt : ¬ x.shares ≤ 1 := Nat.not_le_of_lt spare
  simp only [isLast, lessOne, live, hlt, decide_false, Bool.and_false, Bool.false_eq_true,
    if_false, and_self]

end Handle

/-- A cursor is readied for a new statement if its execution succeeds. -/
theorem Session.readied_fresh (e : Engine) (u : Session) (h : HandleId) (c : ConnectionId)
    (sql : Sql) (params : Params) : u.readied e (.fresh h sql params) (.fresh c sql) =
      (e.execute u.past sql params).map (Cursor.fresh c).cleared.holding := rfl

/-- The step of a new statement comes to the engine's first row. There are four
    ways for it to end, and each of them is one for the row: the execution
    fails, there is no row, the fetch fails, or a row has come. -/
theorem Turn.first {e : Engine} {u : Session} {h : HandleId} {c : ConnectionId} {sql : Sql}
    {params : Params} {answer : Except Fault Bool} {asked : List Request} {st : Statement}
    {handle : Handle} (usable : u.refusal? (.fresh c sql) = none)
    (turn : Turn e u (.fresh h sql params) (.fresh c sql) answer asked st handle) :
    handle.shares = 1 ∧ e.firstRow u.past sql params = handle.outcome answer := by
  have heq := turn.eq_turned
  rw [usable, u.readied_fresh e h c sql params] at heq
  rcases hanswer : e.execute u.past sql params with x | a
  · rw [hanswer] at heq
    cases heq
    refine ⟨Handle.failed_shares x _, ?_⟩
    simp only [Engine.firstRow, hanswer]
    rfl
  · have hpending : ((Cursor.fresh c).cleared.holding a).pending = a.rows := rfl
    simp only [Statement.turned, Statement.fresh, hanswer, Except.map, hpending,
      Bool.false_eq_true, if_false] at heq
    -- What the fetch comes to is the first thing that the engine has for the
    -- cursor.
    rcases hrows : a.rows with _ | ⟨y | row, rest⟩
    · simp only [hrows] at heq
      cases heq
      refine ⟨rfl, ?_⟩
      simp only [Engine.firstRow, hanswer, hrows]
      rfl
    · simp only [hrows] at heq
      cases heq
      refine ⟨Handle.failed_shares y _, ?_⟩
      simp only [Engine.firstRow, hanswer, hrows]
      rfl
    · simp only [hrows] at heq
      cases heq
      refine ⟨rfl, ?_⟩
      simp only [Engine.firstRow, hanswer, hrows]
      rfl

namespace Session

/-- The step of a query comes to the engine's first row, and leaves the
    statement alone on its handle. A step makes no views and moves no shares, so
    this holds after a failure as well as after a row. -/
theorem query_pauses (e : Engine) (s : Session) (sql : Sql) (params : Params) (c : ConnectionId)
    (connected : s.isConnected c = true) :
    ∃ answer u handle,
      (s.newStatement c sql params).2.step e s.statements.length = (answer, u) ∧
        s.Paused e sql params u handle ∧
        e.firstRow s.past sql params = handle.outcome answer := by
  have hfound := newStatement_found c sql params s
  have husable : (s.newStatement c sql params).2.refusal? (.fresh c sql) = none := by
    show Cursor.refusal? (Cursor.fresh c) (s.isConnected c) = none
    rw [connected]
    rfl
  have hcalls := step_calls e _ _ _ _ hfound rfl
  have hviews := step_views e s.statements.length (s.newStatement c sql params).2
  rcases step_turn e _ _ _ _ hfound rfl with ⟨asked, st, handle, turn, stands⟩
  rcases hstep : (s.newStatement c sql params).2.step e s.statements.length with ⟨answer, u⟩
  rw [hstep] at hcalls hviews turn stands
  rcases turn.statement_kept with ⟨hhandle, -, -, hholding⟩
  rcases turn.handle_kept with ⟨hlive, hconnection, hclosed⟩
  rcases turn.first husable with ⟨hshares, hfirst⟩
  rcases (statement?_eq_some_iff _ _ _ _).mp stands.found with ⟨hst, hh⟩
  rw [hhandle] at hh
  refine ⟨answer, u, handle, rfl, ?_, hfirst⟩
  refine ⟨⟨st, hst, hhandle, hholding⟩, hh, hshares, hlive, hclosed, ?_, hviews, ?_⟩
  · rw [stands.connected, hconnection]
    exact connected
  · -- The cursor is not refused, so whether there is a fetch is up to the
    -- execution.
    rw [hcalls, begins, husable]
    rfl

/-- The first column is located if there is a row with a column, and nothing is
    changed by that, as it is looked for by its index. -/
theorem locate_first (u : Session) (id : StatementId) (st : Statement) (handle : Handle) :
    u.locate id st handle (.index 0) = (handle.first.map fun _ => 0, u) := by
  unfold locate Handle.first checkIndex
  rcases hrow : handle.row with _ | row
  · simp only [Handle.hasRow, hrow, Option.isSome_none, Bool.not_false, if_true]
    rfl
  · simp only [Handle.hasRow, hrow, Option.isSome_some, Bool.not_true, Bool.false_eq_true, if_false]
    by_cases hnames : handle.columnNames = []
    · have hcount : handle.columnCount = 0 := List.length_eq_zero_iff.mpr hnames
      have hcheck : (0 : Int) < 0 ∨ (0 : Int) ≥ handle.columnCount := by omega
      rw [if_pos hcheck, if_pos hnames, hcount]
      rfl
    · have hcount : 0 < handle.columnCount := List.length_pos_iff.mpr hnames
      have hcheck : ¬ ((0 : Int) < 0 ∨ (0 : Int) ≥ handle.columnCount) := by omega
      rw [if_neg hcheck, if_neg hnames]
      rfl

/-- The first column is taken if there is a row with a column, and then there is
    one view more. -/
theorem getColumn_first (u : Session) (id : StatementId) (st : Statement) (handle : Handle)
    (found : u.statement? id = some (st, handle)) :
    u.getColumn id (.index 0) = match handle.first with
      | .error f => (.error f, u)
      | .ok _ => (.ok u.views.length, (u.newView st.handle 0).2) := by
  simp only [getColumn, found, locate_first]
  rcases handle.first with f | row
  · rfl
  · rfl

/-! ### What is left -/

/-- What a query leaves behind if nothing is held: its cursor was closed, and
    once. -/
structure Spent (e : Engine) (s : Session) (sql : Sql) (params : Params) (t : Session) : Prop where
  calls : t.calls = s.calls ++ (s.queryCalls e sql params ++ [.finalize s.handles.length])
  once : t.calls.countP (Call.closes s.handles.length) = 1
  ended : ∃ handle, t.handles[s.handles.length]? = some handle ∧ handle.shares = 0 ∧
    handle.finalized = true ∧ handle.row = none ∧ handle.cursor.closed = true
  statements : t.statements.countP (Statement.holds s.handles.length) = 0
  views : t.views.countP (View.holds s.handles.length) = 0

/-- What a query leaves behind if the view of its value is held: nobody else
    holds anything, and the cursor was not closed. -/
structure Held (e : Engine) (s : Session) (sql : Sql) (params : Params) (row : Row) (t : Session) :
    Prop where
  calls : t.calls = s.calls ++ s.queryCalls e sql params
  unclosed : t.calls.countP (Call.closes s.handles.length) = 0
  live : ∃ handle, t.handles[s.handles.length]? = some handle ∧ handle.shares = 1 ∧
    handle.finalized = false ∧ handle.row = some row ∧ handle.cursor.closed = false ∧
    t.isConnected handle.cursor.connection = true
  statements : t.statements.countP (Statement.holds s.handles.length) = 0
  views : t.views.countP (View.holds s.handles.length) = 1
  view : t.views[s.views.length]? = some ⟨s.handles.length, 0, true⟩
  /-- The view finds the first cell of the row. -/
  column : ∃ column, t.column? s.views.length = some column ∧ column.hasRow = true ∧
    column.cell = firstCell row

/-- Nobody holds the handle of a closed statement but views, since no other
    statement has it. -/
theorem Separate.closed {t : Session} (ht : t.Separate) (id : StatementId) (st : Statement)
    (hst : t.statements[id]? = some st) (closed : st.holding = false) :
    t.statements.countP (Statement.holds st.handle) = 0 := by
  rw [List.countP_eq_zero]
  intro other hother hholds
  simp only [Statement.holds, Bool.and_eq_true, beq_iff_eq] at hholds
  rcases List.mem_iff_getElem?.mp hother with ⟨id', hid⟩
  obtain rfl := ht.same t id' id other st hid hst hholds.2
  obtain rfl := Option.some.inj (hid.symm.trans hst)
  rw [closed] at hholds
  cases hholds.1

/-- A query calls nothing by which a cursor is closed, up to its end. -/
theorem queryCalls_closes (e : Engine) (s : Session) (sql : Sql) (params : Params) (h : HandleId) :
    (s.queryCalls e sql params).countP (Call.closes h) = 0 := by
  unfold queryCalls
  split
  · rfl
  · rfl

theorem finalize_closes (h : HandleId) : [Call.finalize h].countP (Call.closes h) = 1 := by
  simp only [Call.closes, List.countP_cons, List.countP_nil, BEq.rfl, if_true]

section

variable {e : Engine} {s : Session} {sql : Sql} {params : Params} {u : Session} {handle : Handle}

/-- The statement of a query that was closed holds nothing, and neither does any
    other statement. -/
theorem Paused.closes (hu : s.Paused e sql params u handle) (w : Session)
    (same : w.statements = u.statements)
    (separate : (w.closeStatement s.statements.length).Separate) :
    ∃ st, w.statements[s.statements.length]? = some st ∧ st.handle = s.handles.length ∧
      st.holding = true ∧
      (w.closeStatement s.statements.length).statements.countP
        (Statement.holds s.handles.length) = 0 := by
  rcases hu.statement with ⟨st, hst, hhandle, holding⟩
  rw [← same] at hst
  refine ⟨st, hst, hhandle, holding, ?_⟩
  have hclosed := getElem?_modify_of_some w.statements (fun st => { st with holding := false })
    s.statements.length s.statements.length st hst
  rw [if_pos rfl, ← closeStatement_statements] at hclosed
  have hnone := separate.closed _ { st with holding := false } hclosed rfl
  rw [← hhandle]
  exact hnone

/-- Closing the statement of a query that has made no view closes the cursor,
    its share being the only one. -/
theorem Paused.spent (hu : s.Paused e sql params u handle) (hs : s.Housed)
    (separate : (u.closeStatement s.statements.length).Separate) :
    s.Spent e sql params (u.closeStatement s.statements.length) := by
  rcases hu.closes u rfl separate with ⟨st, hst, hhandle, holding, hstatements⟩
  have hh := hu.found
  rw [← hhandle] at hh
  rcases closeStatement_effect u _ st handle hst holding hh with ⟨hhandles, hcalls⟩
  rcases handle.lessOne_last hu.live hu.shares with ⟨hlast, hend⟩
  rw [hu.connected, hhandle] at hhandles
  rw [hlast, if_pos rfl, hu.calls, List.append_assoc, hhandle] at hcalls
  refine ⟨hcalls, ?_, ⟨_, hhandles, hend⟩, hstatements, ?_⟩
  · rw [hcalls, List.countP_append, List.countP_append, hs.next.2, queryCalls_closes,
      finalize_closes]
  · rw [closeStatement_views, hu.views]
    exact hs.next.1

theorem isConnected_closeStatement (id : StatementId) (t : Session) (c : ConnectionId) :
    (t.closeStatement id).isConnected c = t.isConnected c := by
  rcases closeStatement_cases id t with ⟨heq, -⟩ | ⟨st, -, -, heq⟩
  · rw [heq]
  · rw [heq, isConnected, (release_surroundings _ _).2]
    rfl

/-- Closing the statement of a query that has made its view leaves the share of
    the view. The handle has two shares when the statement gives up its own, so
    it stays live, and the view finds the row that the step has brought. -/
theorem Paused.held (hu : s.Paused e sql params u handle) (hs : s.Housed) (row : Row)
    (hrow : handle.row = some row) (w : Session) (hw : (u.newView s.handles.length 0).2 = w)
    (separate : (w.closeStatement s.statements.length).Separate) :
    s.Held e sql params row (w.closeStatement s.statements.length) := by
  have hshared := (newView_found u s.handles.length handle hu.found 0).2
  have hviews : (w.closeStatement s.statements.length).views =
      s.views ++ [⟨s.handles.length, 0, true⟩] := by
    rw [closeStatement_views, ← hw, ← hu.views]
    rfl
  have hconnected : w.isConnected handle.cursor.connection = true := by
    rw [← hw]
    exact hu.connected
  rw [hw] at hshared
  rcases hu.closes w (by rw [← hw]; rfl) separate with ⟨st, hst, hhandle, holding, hstatements⟩
  rw [← hhandle] at hshared
  -- The handle has two shares now, and loses one of them.
  rcases closeStatement_effect w _ st _ hst holding hshared with ⟨hhandles, hcalls⟩
  rcases Handle.lessOne_spare { handle with shares := handle.shares + 1 } true hu.live
    (Nat.lt_add_of_pos_left (by rw [hu.shares]; exact Nat.one_pos)) with ⟨hlast, hless⟩
  rw [hconnected, hless, hhandle] at hhandles
  have hsame : w.calls = u.calls := by rw [← hw]; rfl
  rw [hlast, if_neg Bool.false_ne_true, List.append_nil, hsame, hu.calls] at hcalls
  -- The view is the one that was made next, and nothing was made after it.
  have hview : (w.closeStatement s.statements.length).views[s.views.length]? =
      some ⟨s.handles.length, 0, true⟩ := by
    rw [hviews]
    exact List.getElem?_concat_length
  refine ⟨hcalls, ?_, ⟨_, hhandles, hu.shares, hu.live, hrow, hu.usable, ?_⟩, hstatements, ?_,
    hview, ?_⟩
  · rw [hcalls, List.countP_append, hs.next.2, queryCalls_closes]
  · rw [isConnected_closeStatement]
    exact hconnected
  · rw [hviews, List.countP_append, hs.next.1]
    simp only [View.holds, List.countP_cons, List.countP_nil, BEq.rfl, Bool.and_self, if_true]
  · refine ⟨_, column?_shares _ _ s.handles.length 0 handle _ hview hhandles, ?_, ?_⟩
    · show handle.row.isSome = true
      rw [hrow]
      rfl
    · show handle.cellAt 0 = _
      rw [Handle.cellAt, hrow]
      cases row with
      | nil => rfl
      | cons cell rest => rfl

/-- Giving back the view of a query closes the cursor, and what is left is the
    same as after a failure. -/
theorem Held.released {row : Row} {t : Session} (ht : s.Held e sql params row t) :
    s.Spent e sql params (t.releaseView s.views.length) := by
  rcases ht.live with ⟨handle, hh, hshares, hlive, -, -, hconnected⟩
  rcases releaseView_effect t _ _ handle ht.view rfl hh with ⟨hhandles, hcalls⟩
  rcases handle.lessOne_last hlive hshares with ⟨hlast, hend⟩
  rw [hconnected] at hhandles
  rw [hlast, if_pos rfl] at hcalls
  refine ⟨?_, ?_, ⟨_, hhandles, hend⟩, ?_, ?_⟩
  · rw [hcalls, ht.calls, List.append_assoc]
  · rw [hcalls, List.countP_append, ht.unclosed, finalize_closes]
  · rw [releaseView_statements]
    exact ht.statements
  · -- The view was the only one that held the handle.
    have hcount := countP_modify (View.holds s.handles.length)
      (fun view => { view with holding := false }) t.views s.views.length _ ht.view
    rw [← releaseView_views, ht.views] at hcount
    simp only [View.holds, BEq.rfl, Bool.and_self, Bool.false_and, Bool.false_eq_true, if_true,
      if_false] at hcount
    exact Nat.succ.inj hcount

end

/-! ### Queries -/

/-- What a query for one value answers, and what it leaves behind. -/
structure QueriesOnce (e : Engine) (s : Session) (sql : Sql) (params : Params)
    (o : Outcome ViewId) : Prop where
  failed : ∀ f, e.firstRow s.past sql params = .error f →
    o.1 = .error f ∧ s.Spent e sql params o.2
  answered : ∀ row, e.firstRow s.past sql params = .ok row →
    o.1 = .ok s.views.length ∧ s.Held e sql params row o.2

/-- A query for one value leaves its view behind, or nothing. A query goes on
    from its pause: it closes the statement after a failed step, closes it if
    there is no first column, or takes the column and closes it then. -/
theorem queryFirst_leaves (e : Engine) (s : Session) (hs : Reachable e (fun _ => True) s)
    (c : ConnectionId) (opened : s.database.connection = some c) (sql : Sql) (params : Params) :
    s.QueriesOnce e sql params (s.queryFirst e sql params) := by
  have housed := reachable_housed e _ s hs
  have separate := reachable_separate e _ _ (hs.perform (.queryFirst sql params) trivial)
  simp only [perform, viewing_state] at separate
  rcases query_pauses e s sql params c (reachable_connected e s hs c opened) with
    ⟨answer, u, handle, hstep, hu, hfirst⟩
  have hprepare : s.prepare sql params =
      (.ok s.statements.length, (s.newStatement c sql params).2) := by
    simp only [prepare, opened]
    rfl
  unfold queryFirst at separate ⊢
  simp only [hprepare, hstep] at separate ⊢
  cases answer with
  | error f =>
      refine ⟨fun f' hf' => ⟨?_, hu.spent housed separate⟩, fun row hrow => ?_⟩
      · rw [hfirst] at hf'
        exact congrArg Except.error (Except.error.inj hf')
      · rw [hfirst] at hrow
        cases hrow
  | ok more =>
      rcases hu.statement with ⟨st, hst, hhandle, -⟩
      have hfound : u.statement? s.statements.length = some (st, handle) :=
        (statement?_eq_some_iff u _ st handle).mpr ⟨hst, by rw [hhandle]; exact hu.found⟩
      have hget := getColumn_first u s.statements.length st handle hfound
      have hsame : e.firstRow s.past sql params = handle.first := hfirst
      rcases hoffer : handle.first with f | row
      · -- There is no row, or no column in it, so no view is made.
        simp only [hget, hoffer] at separate ⊢
        rw [hoffer] at hsame
        refine ⟨fun f' hf' => ⟨?_, hu.spent housed separate⟩, fun row hrow => ?_⟩
        · rw [hsame] at hf'
          exact congrArg Except.error (Except.error.inj hf')
        · rw [hsame] at hrow
          cases hrow
      · -- The view is made, and the statement is closed behind it.
        simp only [hget, hoffer, hhandle] at separate ⊢
        rw [hoffer] at hsame
        refine ⟨fun f hf => ?_, fun row' hrow' => ⟨?_, ?_⟩⟩
        · rw [hsame] at hf
          cases hf
        · rw [hu.views]
        · rw [hsame] at hrow'
          obtain rfl := Except.ok.inj hrow'
          exact hu.held housed row (handle.row_of_first row hoffer) _ rfl separate

/-- A query whose view is only read once leaves nothing behind, whatever is read
    and whether the reading fails or not. -/
theorem QueriesOnce.readOnce {α : Type} {e : Engine} {s : Session} {sql : Sql} {params : Params}
    {o : Outcome ViewId} (ho : s.QueriesOnce e sql params o) (read : Column → Except Fault α) :
    s.Spent e sql params (match o with
      | (.error f, t) => ((.error f, t) : Outcome α)
      | (.ok v, t) => t.readOnce v read).2 := by
  rcases o with ⟨answer, t⟩
  rcases hrow : e.firstRow s.past sql params with f | row
  · rcases ho.failed f hrow with ⟨hanswer, hspent⟩
    obtain rfl : answer = .error f := hanswer
    exact hspent
  · rcases ho.answered row hrow with ⟨hanswer, hheld⟩
    obtain rfl : answer = .ok s.views.length := hanswer
    rcases hheld.column with ⟨column, hcolumn, -⟩
    simp only [Session.readOnce, hcolumn]
    exact hheld.released

/-- Queries for one value leak nothing. If a query answers, it is with a view of
    the first column of the engine's first row, and nobody else holds anything;
    if it fails, its cursor was closed, and once. The two queries that only read
    their view close their cursor in any case. There is one execution, and at
    most one fetch.

    This holds in every session that can be reached with an open database, for
    every engine, and the calls are known completely: they are those of the
    query, and its closing if there is one. -/
theorem queries_leak_nothing (e : Engine) (s : Session) (hs : Reachable e (fun _ => True) s)
    (c : ConnectionId) (opened : s.database.connection = some c) :
    (∀ sql params, s.QueriesOnce e sql params (s.queryFirst e sql params)) ∧
      (∀ name, s.Spent e tableQuery (.positional [.text name]) (s.tableExists e name).2) ∧
      s.Spent e rowidQuery .empty (s.lastInsertRowid e).2 :=
  ⟨s.queryFirst_leaves e hs c opened,
    fun _ => (s.queryFirst_leaves e hs c opened tableQuery _).readOnce _,
    (s.queryFirst_leaves e hs c opened rowidQuery .empty).readOnce _⟩

/-- A session that has just opened its database. -/
def justOpened : Session := (unopened.run .oneRow [.openDatabase]).2

/-- The view of the one row is all that holds the first handle. -/
theorem queries_leak_nothing_justOpened :
    Reachable .oneRow (fun _ => True) justOpened ∧ justOpened.database.connection = some 0 ∧
      (justOpened.queryFirst .oneRow (.text []) .empty).1 = .ok 0 ∧
      justOpened.Held .oneRow (.text []) .empty [.integer 7]
        (justOpened.queryFirst .oneRow (.text []) .empty).2 := by
  have reachable : Reachable .oneRow (fun _ => True) justOpened :=
    reachable_run .oneRow _ [.openDatabase] _ (.start [] .standard ⟨.root, []⟩) fun _ _ => trivial
  have queries := (queries_leak_nothing .oneRow justOpened reachable 0 rfl).1 (.text []) .empty
  exact ⟨reachable, rfl, queries.answered [.integer 7] rfl⟩

end Session

end RowScope
