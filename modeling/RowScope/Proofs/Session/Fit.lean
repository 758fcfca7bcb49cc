import RowScope.Proofs.Session.Deeds

/-!
# Rows and Their Results

A handle has the current row in one place and the names of the columns in
another, and the checks before a row is read are made against the names. That
these are the names of the row's own result is not said anywhere, but it is so
in every session, if only the engine's rows fit the names that come with them
and nobody executes the cursor or sets the row directly.

What could tear them apart is an execution, which replaces the names and leaves
the row. It takes place in the first step of a statement only, however, and then
there is no row.

## Main definitions

* `Engine.Keeps`, `Handle.Keeps`: All rows are related to the names of their
  columns.
* `Command.usesNoHandle`: A command neither executes a cursor nor sets a row
  directly.

## Theorems

* `Turn.keeps`: A step keeps rows and names related.
* `reachable_keeps`: They are related in every statement.
-/

namespace RowScope

variable {R : List Text → Row → Prop}

/-- Every row of an engine is related to the names of the columns that come with
    it. -/
def Engine.Keeps (R : List Text → Row → Prop) (e : Engine) : Prop :=
  ∀ past sql params a, e.execute past sql params = .ok a →
    ∀ r, .ok r ∈ a.rows → R (a.columns.getD []) r

/-- The row of a handle and those that are to come are related to the names of
    the columns. -/
structure Handle.Keeps (R : List Text → Row → Prop) (h : Handle) : Prop where
  row : ∀ r, h.row = some r → R h.columnNames r
  pending : ∀ r, .ok r ∈ h.cursor.pending → R h.columnNames r

/-- A command neither executes a cursor nor sets a row directly. -/
def Command.usesNoHandle : Command → Prop
  | executeHandle _ => False
  | setRow _ _ => False
  | _ => True

theorem Command.setsNoRow_of_usesNoHandle (c : Command) (hc : c.usesNoHandle) : c.setsNoRow := by
  cases c with
  | setRow h row => exact hc
  | _ => trivial

/-- Without a row there are only those that are to come. -/
theorem Handle.Keeps.of_no_row {h : Handle} (row : h.row = none)
    (pending : ∀ r, .ok r ∈ h.cursor.pending → R h.columnNames r) : h.Keeps R := by
  refine ⟨?_, pending⟩
  intro r hr
  rw [row] at hr
  cases hr

theorem Handle.Keeps.fresh (connection : ConnectionId) (sql : Sql) :
    (Handle.fresh connection sql).Keeps R := by
  refine .of_no_row rfl ?_
  intro r hr
  cases hr

theorem Handle.Settles.keeps {x y : Handle} (h : x.Settles y) (hx : x.Keeps R) : y.Keeps R := by
  cases h with
  | counted shares => exact ⟨hx.row, hx.pending⟩
  | ended finalized row closed cursor =>
      refine .of_no_row row ?_
      unfold Handle.columnNames
      rw [cursor]
      exact hx.pending

/-- What a readied cursor delivers is related to its names. -/
theorem Session.readied_keeps {e : Engine} {s : Session} {st : Statement} {handle : Handle}
    {c : Cursor} (he : e.Keeps R) (hk : handle.Keeps R) (ready : s.readied e st handle = .ok c) :
    ∀ r, .ok r ∈ c.pending → R (c.columns.getD []) r := by
  unfold Session.readied at ready
  split at ready
  · rw [← Except.ok.inj ready]
    exact hk.pending
  · rcases hanswer : e.execute s.past st.sql st.params with x | a
    · rw [hanswer] at ready
      cases ready
    · rw [hanswer] at ready
      rw [← Except.ok.inj ready]
      exact he _ _ _ a hanswer

/-- A row is there only if the readied cursor is the one it was fetched from. A
    cursor that is executed for this step is another one, but then the statement
    was idle and there is no row. -/
theorem Session.readied_row {e : Engine} {s : Session} {st : Statement} {handle : Handle}
    {c : Cursor} (idle : st.Idle → handle.row = none) (ready : s.readied e st handle = .ok c)
    (r : Row) (hr : handle.row = some r) : c = handle.cursor := by
  rcases hstarted : st.started with _ | _
  · rw [idle (Or.inl hstarted)] at hr
    cases hr
  · unfold Session.readied at ready
    rw [hstarted, if_pos rfl] at ready
    exact (Except.ok.inj ready).symm

/-- A step keeps rows and names related. The step that executes replaces the
    names, and it is made only while there is no row; every other step goes on
    with the names that there are. -/
theorem Turn.keeps {e : Engine} {s : Session} {st st' : Statement} {handle handle' : Handle}
    {told : Except Fault Bool} {asked : List Request}
    (turn : Turn e s st handle told asked st' handle') (he : e.Keeps R)
    (idle : st.Idle → handle.row = none) (hk : handle.Keeps R) : handle'.Keeps R := by
  -- A failure brings no row.
  have failed : ∀ (x : EngineError) (h : Handle), h.Keeps R → (h.failed x).Keeps R := by
    intro x h hh
    unfold Handle.failed
    split
    · exact .of_no_row rfl hh.pending
    · exact hh
  cases turn with
  | completed _ => exact hk
  | refused x _ _ => exact failed x handle hk
  | unexecuted x _ _ readied =>
      -- The names are forgotten, and there is no row that had them.
      have hrow : handle.row = none := by
        rcases hstarted : st.started with _ | _
        · exact idle (Or.inl hstarted)
        · unfold Session.readied at readied
          rw [hstarted, if_pos rfl] at readied
          cases readied
      refine failed x _ (.of_no_row hrow ?_)
      intro r hr
      cases hr
  | ended c _ _ readied pending =>
      exact .of_no_row rfl (Session.readied_keeps he hk readied)
  | arrived c row rest _ _ readied pending =>
      have hall := Session.readied_keeps he hk readied
      rw [pending] at hall
      constructor
      · intro r hr
        rw [← Option.some.inj hr]
        exact hall row List.mem_cons_self
      · intro r hr
        exact hall r (List.mem_cons_of_mem _ hr)
  | failed c x rest _ _ readied pending =>
      refine failed x _ ⟨?_, ?_⟩
      · -- A row from before was fetched from this cursor.
        intro r hr
        have hsame := Session.readied_row idle readied r hr
        rw [hsame]
        exact hk.row r hr
      · intro r hr
        cases hr

/-- Rows and names are related in every statement, wherever commands lead that
    use no handle directly. -/
theorem Session.reachable_keeps (e : Engine) (he : e.Keeps R) (s : Session)
    (hs : Reachable e Command.usesNoHandle s) (id : StatementId) (st : Statement) (handle : Handle)
    (found : s.statement? id = some (st, handle)) : handle.Keeps R := by
  refine reachable_statement e _ (fun _ handle => handle.Keeps R) ?_ s hs id st handle found
  intro s t id c answer st' handle' before hc ih passage
  cases passage with
  | prepared connection h sql params unmade => exact .fresh connection sql
  | queried connection h sql params u unmade turn rests settles closed =>
      exact settles.keeps (turn.keeps he (fun _ => rfl) (.fresh connection sql))
  | beside found unmoved unexecuted rests settles => exact settles.keeps (ih _ _ found)
  | rejected found moved closed same reported => exact ih _ _ found
  | turned found holding stepped turn past reported =>
      -- If this step executes, the names change under whatever row there is,
      -- and there is none.
      have idle := reachable_idle e s (before.mono Command.setsNoRow_of_usesNoHandle) id _ _ found
      exact turn.keeps he idle (ih _ _ found)
  | reset params found holding command reported =>
      exact .of_no_row rfl (ih _ _ found).pending
  | executed found command past =>
      rw [command] at hc
      exact False.elim hc
  | rowSet row found command =>
      rw [command] at hc
      exact False.elim hc

end RowScope
