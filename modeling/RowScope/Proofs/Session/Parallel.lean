import RowScope.Proofs.Column.Renaming
import RowScope.Proofs.Session.World

/-!
# Operations in Parallel

What is done with a statement is done in its world. Here that is shown of every
operation, for two sessions at once: if they have the same world for the
statement, then the operation says the same in both, and they have the same
world afterwards. An operation that has to do with views is told their numbers,
and its answer is compared by numbers as well.

The engine is the only thing outside that an operation depends on. So the two
sessions may differ in what the engine was asked before, provided that it
answers executions without regard to that.

## Main definitions

* `Engine.Forgetful`: Executions do not depend on what came before.
* `World.column?`: What a view finds, by its number.

## Theorems

* `step_alongside`, `exec_alongside`, `reset_alongside`: Stepping.
* `getColumn_alongside`, `isColumnNull_alongside`, `getColumns_alongside`:
  Reading the row.
* `release_together`, `releaseViews_together`: Giving back shares.
-/

namespace RowScope

/-- An engine whose answer to an execution depends on nothing but the SQL and
    the parameters. -/
def Engine.Forgetful (e : Engine) : Prop :=
  ∀ past past' sql params, e.execute past sql params = e.execute past' sql params

namespace World

/-- What a view finds, by its number. -/
def column? (w : World) (k : Nat) : Option Column :=
  (w.views[k]?).map fun view => w.handle.column k view.index

end World

namespace Session

/-- A view that is told by its number, or why there is none. -/
def numbered (place : Nat → ViewId) (r : Except Fault Nat) : Except Fault ViewId := r.map place

/-- A value that is told with views by their numbers, or why there is none. -/
def valued (place : Nat → ViewId) (r : Except Fault Value) : Except Fault Value :=
  r.map (Value.renamed place)

theorem storedValue_renamed (f : ViewId → ViewId) (c : Column) :
    storedValue (c.renamed f) = (storedValue c).map (Value.renamed f) := by
  have hread : (c.renamed f).read Cell.storageClass = c.read Cell.storageClass := rfl
  have hcell : (c.renamed f).cell = c.cell := rfl
  unfold storedValue
  rw [hread, hcell]
  rcases c.read Cell.storageClass with x | _
  · rfl
  · rcases c.cell with x | cell
    · rfl
    · exact congrArg Except.ok (Value.ofStored_renamed f cell).symm

section

variable {s t : Session} {a : StatementId} {w : World} (hs : s.world? a = some w)
  (ht : t.world? a = some w)

include hs

/-- What a view finds depends on its number, up to its identity. The handle and
    the index of the view are in the world, and so is the row. -/
theorem world_column (k : Nat) :
    s.column? ((s.numbering w.statement.handle).placed k) =
      (w.column? k).map (Column.renamed (s.numbering w.statement.handle).placed) := by
  have hview := world_views hs k
  have hh := (world_found hs).2
  have hviews := world_viewsOf hs
  rcases hk : w.views[k]? with _ | view
  · rw [hk] at hview
    simp only [column?, hview, World.column?, hk, Option.bind_eq_bind, Option.bind_none,
      Option.map_none]
  · rw [hk] at hview
    have hhandle : view.handle = w.statement.handle := by
      rw [← hviews] at hk
      exact viewsOf_handle s _ k view hk
    simp only [column?, hview, hhandle, hh, World.column?, hk, Option.bind_eq_bind,
      Option.bind_some, Option.map_some, Option.pure_def]
    rfl

include ht

/-! ### Stepping -/

/-- An execution does the same in both sessions, and this is where the engine
    must not remember: the two sessions may have asked it different things
    before. What is refused is decided in the world; otherwise the last result
    is forgotten, the engine is asked, and its answer is held, and each of these
    is one small change after the other. -/
theorem executeCursor_alongside {e : Engine} (he : e.Forgetful) (sql : Sql) (params : Params) :
    Alongside plain a w s t (s.executeCursor e w.statement.handle w.handle sql params)
      (t.executeCursor e w.statement.handle w.handle sql params) := by
  -- The refusal is read off the world, and the engine has to be asked without
  -- its past.
  have hrefusal : t.refusal? w.handle = s.refusal? w.handle :=
    (world_refusal ht).trans (world_refusal hs).symm
  have hanswer : e.execute t.past sql params = e.execute s.past sql params := he _ _ _ _
  rcases hx : s.refusal? w.handle with _ | x
  · -- The last result is forgotten before the engine answers.
    have hcalled := Together.of_within hs ht (called · (.execute w.statement.handle sql params))
      fun _ hu => within_called hu _ rfl
    have hcleared := hcalled.trans (.of_within hcalled.left hcalled.right
      (onHandle · w.statement.handle (Handle.onCursor Cursor.cleared))
      fun _ hu => within_onHandle hu _)
    have hasked := hcleared.trans (.of_within hcleared.left hcleared.right
      (asked · (.execute sql params)) fun _ hu => within_asked hu _)
    rcases ha : e.execute s.past sql params with f | answer
    · rw [executeCursor_failed e _ _ sql params s hx f ha,
        executeCursor_failed e _ _ sql params t (hrefusal.trans hx) f (hanswer.trans ha)]
      exact .of_eq rfl hasked
    · rw [executeCursor_executed e _ _ sql params s hx answer ha,
        executeCursor_executed e _ _ sql params t (hrefusal.trans hx) answer (hanswer.trans ha)]
      have hheld := hasked.trans (.of_within hasked.left hasked.right
        (onHandle · w.statement.handle (Handle.onCursor (Cursor.holding · answer)))
        fun _ hu => within_onHandle hu _)
      exact .of_eq rfl (hheld.trans (.of_within hheld.left hheld.right
        (onConnection · w.handle.cursor.connection fun c =>
          { c with changes := c.changes + answer.changes })
        fun _ hu => within_onConnection hu _ _ fun _ => rfl))
  · rw [executeCursor_refused e _ _ sql params s x hx,
      executeCursor_refused e _ _ sql params t x (hrefusal.trans hx)]
    exact .of_eq rfl (.of_within hs ht (called · _) fun _ hu => within_called hu _ rfl)

/-- A fetch takes the next thing that the cursor has, or is refused. The engine
    is not asked, so nothing has to be known of it. -/
theorem fetchCursor_alongside :
    Alongside plain a w s t (s.fetchCursor w.statement.handle)
      (t.fetchCursor w.statement.handle) := by
  have hcalled := Together.of_within hs ht (called · (.fetch w.statement.handle))
    fun _ hu => within_called hu _ rfl
  -- Whether the cursor refuses is decided in the world `w`, hence alike in both
  -- sessions; either way what the fetch does is the same function of the
  -- session.
  rcases hx : w.handle.cursor.refusal? (w.connected w.handle.cursor.connection) with _ | x
  · have fetched : ∀ u : Session, (u.called (.fetch w.statement.handle)).world? a = some w →
        u.fetchCursor w.statement.handle = (w.handle.cursor.next.1,
          (u.called (.fetch w.statement.handle)).onHandle w.statement.handle
            (Handle.onCursor fun _ => w.handle.cursor.next.2)) := by
      intro u hu
      simp only [fetchCursor, (world_found hu).2, world_refusal hu, hx]
    rw [fetched s hcalled.left, fetched t hcalled.right]
    exact .of_eq rfl (hcalled.trans (.of_within hcalled.left hcalled.right
      (onHandle · w.statement.handle (Handle.onCursor fun _ => w.handle.cursor.next.2))
      fun _ hu => within_onHandle hu _))
  · have refused : ∀ u : Session, (u.called (.fetch w.statement.handle)).world? a = some w →
        u.fetchCursor w.statement.handle =
          (.error x, u.called (.fetch w.statement.handle)) := by
      intro u hu
      simp only [fetchCursor, (world_found hu).2, world_refusal hu, hx]
    rw [refused s hcalled.left, refused t hcalled.right]
    exact .of_eq rfl hcalled

theorem setRow_together (row : Option Row) :
    Together a w s t { w with handle := { w.handle with row := row } }
      (s.setRow w.statement.handle row) (t.setRow w.statement.handle row) :=
  .of_within hs ht (setRow w.statement.handle row)
    fun _ hu => within_onHandle hu fun x => { x with row := row }

/-- A step that has failed drops the row if the failure is one of the database,
    and else leaves everything. -/
theorem stepFailed_alongside (x : EngineError) :
    Alongside plain a w s t (s.stepFailed w.statement.handle x)
      (t.stepFailed w.statement.handle x) := by
  unfold stepFailed
  by_cases hx : x.isDatabaseFailure = true
  · rw [if_pos hx, if_pos hx]
    exact .of_eq rfl (setRow_together hs ht none)
  · rw [if_neg hx, if_neg hx]
    exact .of_eq rfl (.refl hs ht)

/-- A step begins with the execution, unless the statement has started; whether
    it has is in the world. -/
theorem begin_alongside {e : Engine} (he : e.Forgetful) :
    Alongside plain a w s t (s.begin e a w.statement) (t.begin e a w.statement) := by
  unfold begin
  by_cases hstarted : w.statement.started = true
  · rw [if_pos hstarted, if_pos hstarted]
    exact .of_eq rfl (.refl hs ht)
  · rw [if_neg hstarted, if_neg hstarted, (world_found hs).2, (world_found ht).2]
    have hnoted := Together.of_within hs ht (noted · (.executing w.statement.sql))
      fun _ hu => within_noted hu _
    -- The only half of a step that asks the engine, and so the one where it
    -- must not remember.
    rcases (executeCursor_alongside hnoted.left hnoted.right he w.statement.sql
      w.statement.params).elim_plain with ⟨r, w', s', t', hl, hr, h⟩
    simp only [hl, hr]
    refine hnoted.andThen (h.andThen ?_)
    cases r with
    | error x => exact .of_eq rfl (.refl h.left h.right)
    | ok _ =>
        exact .of_eq rfl (.of_within h.left h.right
          (onStatement · a fun st => { st with started := true })
          fun _ hu => within_onStatement hu _ rfl)

theorem arrive_alongside (fetched : Option Row) :
    Alongside plain a w s t (Session.arrive a w.statement.handle fetched s)
      (Session.arrive a w.statement.handle fetched t) := by
  cases fetched with
  | none =>
      have hrow := setRow_together hs ht none
      exact .of_eq rfl (hrow.trans (.of_within hrow.left hrow.right
        (onStatement · a fun st => { st with done := true })
        fun _ hu => within_onStatement hu _ rfl))
  | some row => exact .of_eq rfl (setRow_together hs ht (some row))

/-- A step does the same in both sessions. It follows the source, from the
    refusals to the execution and to the fetch, and each part takes up the two
    sessions and the world where the one before has left them. -/
theorem step_alongside {e : Engine} (he : e.Forgetful) :
    Alongside plain a w s t (s.step e a) (t.step e a) := by
  unfold step
  rw [(world_found hs).1, (world_found ht).1]
  simp only []
  split
  · exact .of_eq rfl (.refl hs ht)
  · split
    · exact .of_eq rfl (.refl hs ht)
    · -- The execution, if there is one, and then the fetch.
      rcases (begin_alongside hs ht he).elim_plain with ⟨r, w1, s1, t1, hl, hr, h1⟩
      rw [hl, hr, ← h1.handle]
      refine h1.andThen ?_
      cases r with
      | error x => exact stepFailed_alongside h1.left h1.right x
      | ok _ =>
          rcases (fetchCursor_alongside h1.left h1.right).elim_plain with
            ⟨r, w2, s2, t2, hl, hr, h2⟩
          simp only [hl, hr]
          rw [← h2.handle]
          refine h2.andThen ?_
          cases r with
          | error x => exact stepFailed_alongside h2.left h2.right x
          | ok fetched => exact arrive_alongside h2.left h2.right fetched

/-- To execute without rows is a step, after which a row is a fault and the end
    is answered with a count. -/
theorem exec_alongside {e : Engine} (he : e.Forgetful) :
    Alongside plain a w s t (s.exec e a) (t.exec e a) := by
  rcases (step_alongside hs ht he).elim_plain with ⟨r, w', s', t', hl, hr, h⟩
  unfold exec
  rw [hl, hr]
  refine h.andThen ?_
  rcases r with f | more
  · exact .of_eq rfl (.refl h.left h.right)
  · cases more with
    | true => exact .of_eq rfl (.refl h.left h.right)
    | false =>
        -- The count of affected rows is read off the handle after the step.
        rcases world_found h.left with ⟨hst, hh⟩
        rcases world_found h.right with ⟨hst', hh'⟩
        simp only [hst, hst', Option.bind_some, hh, hh']
        exact .of_eq rfl (.refl h.left h.right)

/-- A reset forgets the row, the flags and perhaps the parameters, and calls
    nothing. -/
theorem reset_alongside (params : Option Params) :
    Alongside plain a w s t (s.reset a params) (t.reset a params) := by
  unfold reset
  rw [(world_found hs).1, (world_found ht).1]
  simp only []
  split
  · exact .of_eq rfl (.refl hs ht)
  · have hnoted := Together.of_within hs ht (noted · (.resetting w.statement.sql))
      fun _ hu => within_noted hu _
    have hrow := hnoted.trans (setRow_together hnoted.left hnoted.right none)
    exact .of_eq rfl (hrow.trans (.of_within hrow.left hrow.right
      (onStatement · a fun st =>
        { st with started := false, done := false, params := params.getD st.params })
      fun _ hu => within_onStatement hu _ rfl))

/-! ### Giving back shares -/

/-- A share is given back in both sessions, and with it the cursor is closed in
    both or in neither. -/
theorem release_together : ∃ w', Together a w s t w' (s.release w.statement.handle)
    (t.release w.statement.handle) :=
  ⟨_, .of_within hs ht _ fun _ hu => within_release hu⟩

/-- A statement gives its share back once, in both sessions, and later closings
    do nothing in either. -/
theorem closeStatement_together : ∃ w', Together a w s t w' (s.closeStatement a)
    (t.closeStatement a) := by
  unfold closeStatement
  rw [(world_found hs).1, (world_found ht).1]
  simp only []
  split
  · have hclosed := Together.of_within hs ht
      (onStatement · a fun st => { st with holding := false })
      fun _ hu => within_onStatement hu _ rfl
    rcases release_together hclosed.left hclosed.right with ⟨w', h⟩
    exact ⟨w', hclosed.trans h⟩
  · exact ⟨w, .refl hs ht⟩

/-- A view is given up by its number. The view of this number is the same in
    both sessions, where it may have different identities, and so is whether it
    still has its share. -/
theorem releaseView_together (k : Nat) : ∃ w', Together a w s t w'
    (s.releaseView ((s.numbering w.statement.handle).placed k))
    (t.releaseView ((t.numbering w.statement.handle).placed k)) := by
  have hviews := world_viewsOf hs
  unfold releaseView
  rw [world_views hs k, world_views ht k]
  rcases hk : w.views[k]? with _ | view
  · exact ⟨w, .refl hs ht⟩
  · have hhandle : view.handle = w.statement.handle := by
      rw [← hviews] at hk
      exact viewsOf_handle s _ k view hk
    simp only [hhandle]
    -- A share that was given back before is not given back again.
    split
    · have hgiven : Together a w s t _
          (s.onView ((s.numbering w.statement.handle).placed k) fun v =>
            { v with holding := false })
          (t.onView ((t.numbering w.statement.handle).placed k) fun v =>
            { v with holding := false }) :=
        ⟨[], within_onView hs k _ (fun _ => rfl), within_onView ht k _ (fun _ => rfl)⟩
      rcases release_together hgiven.left hgiven.right with ⟨w', h⟩
      exact ⟨w', hgiven.trans h⟩
    · exact ⟨w, .refl hs ht⟩

theorem releaseViews_together (ks : List Nat) : ∃ w', Together a w s t w'
    (s.releaseViews (ks.map (s.numbering w.statement.handle).placed))
    (t.releaseViews (ks.map (t.numbering w.statement.handle).placed)) := by
  -- On the numbers; each view is given up in the sessions that the ones before
  -- have led to.
  induction ks generalizing s t w with
  | nil => exact ⟨w, .refl hs ht⟩
  | cons k rest ih =>
      rcases releaseView_together hs ht k with ⟨w1, first⟩
      rcases ih first.left first.right with ⟨w2, others⟩
      rw [first.handle, first.placed.1, first.placed.2] at others
      exact ⟨w2, first.trans others⟩

/-! ### Reading the row -/

/-- The table of names is made once, of the names in the handle, and is kept in
    the statement. -/
theorem placesOf_alongside :
    Alongside plain a w s t (s.placesOf a w.statement w.handle)
      (t.placesOf a w.statement w.handle) := by
  unfold placesOf
  split
  · exact .of_eq rfl (.refl hs ht)
  · split
    · exact .of_eq rfl (.refl hs ht)
    · exact .of_eq rfl (.of_within hs ht
        (onStatement · a fun st => { st with places := some (firstPlaces w.handle.columnNames) })
        fun _ hu => within_onStatement hu _ rfl)

/-- A name is looked up in the table, which is made for it if need be. -/
theorem placeOf_alongside (name : Text) :
    Alongside plain a w s t (s.placeOf a w.statement w.handle name)
      (t.placeOf a w.statement w.handle name) := by
  rcases (placesOf_alongside hs ht).elim_plain with ⟨r, w', s', t', hl, hr, h⟩
  unfold placeOf
  rw [hl, hr]
  refine h.andThen ?_
  rcases r with _ | places
  · exact .of_eq rfl (.refl h.left h.right)
  · simp only []
    split
    · exact .of_eq rfl (.refl h.left h.right)
    · exact .of_eq rfl (.refl h.left h.right)

/-- The number of a column that was found is checked, by the same handle. -/
theorem checked_alongside (handle : Handle) (i : Int) :
    Alongside plain a w s t
      (match checkIndex handle i with
        | .error f => ((.error f, s) : Outcome Int)
        | .ok () => (.ok i, s))
      (match checkIndex handle i with
        | .error f => ((.error f, t) : Outcome Int)
        | .ok () => (.ok i, t)) := by
  split
  · exact .of_eq rfl (.refl hs ht)
  · exact .of_eq rfl (.refl hs ht)

/-- A column is found by its index or by its name. Only a name may change
    something, as its table is then made. -/
theorem locate_alongside (key : Key) :
    Alongside plain a w s t (s.locate a w.statement w.handle key)
      (t.locate a w.statement w.handle key) := by
  unfold locate
  split
  · exact .of_eq rfl (.refl hs ht)
  · cases key with
    | index i => exact checked_alongside hs ht w.handle i
    | name name =>
        rcases (placeOf_alongside hs ht name).elim_plain with ⟨r, w', s', t', hl, hr, h⟩
        simp only [hl, hr]
        refine h.andThen ?_
        cases r with
        | error f => exact .of_eq rfl (.refl h.left h.right)
        | ok i => exact checked_alongside h.left h.right w.handle i

theorem columnIndex_alongside (name : Text) :
    Alongside plain a w s t (s.columnIndex a name) (t.columnIndex a name) := by
  simp only [columnIndex, world_statement hs, world_statement ht]
  exact placeOf_alongside hs ht name

theorem isColumnNull_alongside (key : Key) :
    Alongside plain a w s t (s.isColumnNull a key) (t.isColumnNull a key) := by
  simp only [isColumnNull, world_statement hs, world_statement ht]
  rcases (locate_alongside hs ht key).elim_plain with ⟨r, w', s', t', hl, hr, h⟩
  rw [hl, hr]
  refine h.andThen ?_
  cases r with
  | error f => exact .of_eq rfl (.refl h.left h.right)
  | ok i => exact .of_eq rfl (.refl h.left h.right)

/-! ### Making views -/

/-- A view is made, and told by its number: it is the next one of the handle in
    both sessions. -/
theorem newView_alongside (i : Int) :
    Alongside (fun place k => place k) a w s t (s.newView w.statement.handle i)
      (t.newView w.statement.handle i) :=
  ⟨⟨w.views.length, (world_next hs).symm, (world_next ht).symm⟩, _,
    .of_within hs ht (fun u => (u.newView w.statement.handle i).2)
      fun _ hu => within_newView hu i⟩

theorem newViews_alongside (is : List Nat) :
    Alongside (fun place (ks : List Nat) => ks.map place) a w s t
      (s.newViews w.statement.handle is) (t.newViews w.statement.handle is) := by
  induction is generalizing s t w with
  | nil => exact ⟨⟨[], rfl, rfl⟩, w, .refl hs ht⟩
  | cons i rest ih =>
      rcases (newView_alongside hs ht i).elim with ⟨k, w1, s1, t1, hl, hr, first⟩
      rcases (ih first.left first.right).elim with ⟨ks, w2, s2, t2, hl', hr', others⟩
      rw [first.handle, first.placed.1] at hl'
      rw [first.handle, first.placed.2] at hr'
      simp only [newViews, hl, hr, hl', hr']
      exact ⟨⟨k :: ks, rfl, rfl⟩, w2, first.trans others⟩

/-- A column is found and a view made of it; what is told is the number of the
    view, or why there is none. -/
theorem getColumn_alongside (key : Key) :
    Alongside numbered a w s t (s.getColumn a key)
      (t.getColumn a key) := by
  simp only [getColumn, world_statement hs, world_statement ht]
  rcases (locate_alongside hs ht key).elim_plain with ⟨r, w1, s1, t1, hl, hr, h⟩
  rw [hl, hr, ← h.handle]
  refine h.andThen ?_
  cases r with
  | error f => exact ⟨⟨.error f, rfl, rfl⟩, w1, .refl h.left h.right⟩
  | ok i =>
      rcases newView_alongside h.left h.right i with ⟨⟨k, hl, hr⟩, hmade⟩
      exact ⟨⟨.ok k, congrArg Except.ok hl, congrArg Except.ok hr⟩, hmade⟩

/-- A view that is made to be read once, and is given up behind the reading. It
    is enough of the reading that renaming does not disturb it. -/
theorem peek_alongside (key : Key) (read : Column → Except Fault Value)
    (hread : ∀ f c, read (Column.renamed f c) = (read c).map (Value.renamed f)) :
    Alongside valued a w s t
      (s.peek a key read) (t.peek a key read) := by
  rcases (getColumn_alongside hs ht key).elim with ⟨r, w', s', t', hl, hr, h⟩
  unfold peek
  rw [hl, hr]
  refine h.andThen ?_
  cases r with
  | error f => exact ⟨⟨.error f, rfl, rfl⟩, w', .refl h.left h.right⟩
  | ok k =>
      -- The view has the same number in both, so both find the same and give
      -- the same back.
      simp only [numbered, Except.map, readOnce]
      rw [← h.placed.1, ← h.placed.2, ← h.handle, world_column h.left, world_column h.right]
      rcases w'.column? k with _ | c
      · exact ⟨⟨.error .noObject, rfl, rfl⟩, w', .refl h.left h.right⟩
      · exact ⟨⟨read c, hread _ c, hread _ c⟩, releaseView_together h.left h.right k⟩

/-- The cells of a row are read one by one, by a view each. A failure ends the
    reading, and the views before it were given up by then. -/
theorem cellsAt_alongside (is : List Nat) :
    Alongside (fun place (r : Except Fault (List Value)) => r.map (Value.renamedEach place)) a w s t
      (s.cellsAt a is) (t.cellsAt a is) := by
  induction is generalizing s t w with
  | nil => exact ⟨⟨.ok [], rfl, rfl⟩, w, .refl hs ht⟩
  | cons i rest ih =>
      rcases (peek_alongside hs ht (.index i) storedValue storedValue_renamed).elim with
        ⟨r, w1, s1, t1, hl, hr, h1⟩
      unfold cellsAt
      rw [hl, hr]
      cases r with
      | error f => exact ⟨⟨.error f, rfl, rfl⟩, w1, h1⟩
      | ok value =>
          rcases (ih h1.left h1.right).elim with ⟨r, w2, s2, t2, hl, hr, h2⟩
          -- The readings that follow are about the world after this one, whose
          -- views have the same places.
          rw [h1.handle, h1.placed.1] at hl
          rw [h1.handle, h1.placed.2] at hr
          simp only [valued, Except.map, hl, hr]
          cases r with
          | error f => exact ⟨⟨.error f, rfl, rfl⟩, w2, h1.trans h2⟩
          | ok values => exact ⟨⟨.ok (value :: values), rfl, rfl⟩, w2, h1.trans h2⟩

theorem cells_alongside :
    Alongside valued a w s t
      (s.cells a) (t.cells a) := by
  simp only [cells, world_statement hs, world_statement ht]
  rcases (cellsAt_alongside hs ht (List.range w.handle.columnCount)).elim with
    ⟨r, w', s', t', hl, hr, h⟩
  rw [hl, hr]
  cases r with
  | error f => exact ⟨⟨.error f, rfl, rfl⟩, w', h⟩
  | ok values => exact ⟨⟨.ok (.list values), rfl, rfl⟩, w', h⟩

omit ht in
/-- A record is built from columns that only depend on the numbers of the views,
    and those views are given back that the record does not hold. Which ones it
    holds can be told by numbers as well, since no two numbers are placed at one
    view. -/
theorem buildRecord_numbered (shape : Shape) (ks : List Nat) :
    s.buildRecord (shape.renamed (s.numbering w.statement.handle).placed)
        (ks.map (s.numbering w.statement.handle).placed) =
      match shape.build (ks.filterMap w.column?) with
      | .error f => (.error f, s.releaseViews (ks.map (s.numbering w.statement.handle).placed))
      | .ok value => (.ok (value.renamed (s.numbering w.statement.handle).placed),
          s.releaseViews ((ks.filter fun k => !value.views.contains k).map
            (s.numbering w.statement.handle).placed)) := by
  have hcolumns : (ks.map (s.numbering w.statement.handle).placed).filterMap s.column? =
      (ks.filterMap w.column?).map
        (Column.renamed (s.numbering w.statement.handle).placed) := by
    rw [List.filterMap_map, List.map_filterMap]
    refine List.filterMap_congr ?_
    intro k _
    exact world_column hs k
  unfold buildRecord
  rw [hcolumns, Shape.build_renamed]
  rcases shape.build (ks.filterMap w.column?) with f | value
  · rfl
  · have hheld : (ks.map (s.numbering w.statement.handle).placed).filter (fun v =>
          !(value.renamed (s.numbering w.statement.handle).placed).views.contains v) =
        (ks.filter fun k => !value.views.contains k).map
          (s.numbering w.statement.handle).placed := by
      rw [List.filter_map, Value.views_renamed]
      congr 1
      refine List.filter_congr ?_
      intro k _
      -- This is where placing must be injective: a view is held just if its
      -- number is.
      simp only [Function.comp_apply, List.contains_eq_mem,
        List.mem_map_of_injective (fun _ _ => Numbering.placed_injective _)]
    simp only [Except.map, hheld]

/-- A record is built from views that have the same numbers, and holds the
    same. -/
theorem buildRecord_alongside (shape : Shape) (ks : List Nat) :
    Alongside valued a w s t
      (s.buildRecord (shape.renamed (s.numbering w.statement.handle).placed)
        (ks.map (s.numbering w.statement.handle).placed))
      (t.buildRecord (shape.renamed (t.numbering w.statement.handle).placed)
        (ks.map (t.numbering w.statement.handle).placed)) := by
  rw [buildRecord_numbered hs, buildRecord_numbered ht]
  rcases shape.build (ks.filterMap w.column?) with f | value
  · exact ⟨⟨.error f, rfl, rfl⟩, releaseViews_together hs ht ks⟩
  · exact ⟨⟨.ok value, rfl, rfl⟩, releaseViews_together hs ht _⟩

/-- A record is made of the first columns. The shape may have defaults with
    views in them; these are told by numbers like the views that are made for
    it. -/
theorem getColumns_alongside (shape : Shape) (count : Int) :
    Alongside valued a w s t
      (s.getColumns a (shape.renamed (s.numbering w.statement.handle).placed) count)
      (t.getColumns a (shape.renamed (t.numbering w.statement.handle).placed) count) := by
  simp only [getColumns, world_statement hs, world_statement ht]
  rcases checkWidth w.handle count with f | n
  · exact ⟨⟨.error f, rfl, rfl⟩, w, .refl hs ht⟩
  · -- The new views have the same numbers, and the record is built from these.
    rcases (newViews_alongside hs ht (List.range n)).elim with ⟨ks, w', s', t', hl, hr, h⟩
    simp only [hl, hr]
    refine h.andThen ?_
    rw [← h.placed.1, ← h.placed.2, ← h.handle]
    exact buildRecord_alongside h.left h.right shape ks

end

end Session

end RowScope
