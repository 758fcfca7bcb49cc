import RowScope.Proofs.CommandLine.Page
import RowScope.Proofs.Session.Admission

/-!
# Printouts

Printing a result writes the page of its rows, and of those in front of the
first failure if there is one; then it ends with that failure. No line is
written in part, since a step fails before the line of its row is begun, and a
row that has come can be printed as a whole.

The loop over the rows has no bound in what it says, and a bound in how it is
run. `Loops` is the loop without the bound, as the relation between where it
starts and where it ends after so many rows, and to be in this relation is to
come to an end. The bounded loop does the same if only it may print as many
rows.

All along, the handle of the statement has one share for the statement and one
for the view of the cell that was printed last. The view before that one is
given up while there are three, so nothing is finalized and the row stays where
it is. That is what `Prints` says, for every cell, every row and every step.

## Main definitions

* `Answer.names`, `Answer.yields`: What an execution comes to, names first and
  then step by step.
* `beforeFailure`, `firstFailure`: The rows that can be fetched, and why there
  are no more.
* `Loops`: The loop over the rows, without a bound.
* `Prints`: A statement in the middle of being printed.

## Theorems

* `printFrom_of_loops`: The bounded loop comes to the same end.
* `Prints.moveOn`: The next view is made before the last one is given up.
* `printCell_prints`, `printCells_prints`, `printRow_prints`: A cell, cells and
  a row are printed.
* `step_prints`: What a step comes to in the middle of printing.
* `loops_prints`: All rows are printed.
* `printRows_exact`: The rows of some SQL are printed exactly.
-/

namespace RowScope

/-! ### What an execution comes to -/

namespace Answer

/-- The names of the columns. -/
def names : Except EngineError Answer → List Text
  | .ok a => a.columns.getD []
  | .error _ => []

/-- What the steps come to. An execution that fails does so in the first one. -/
def yields : Except EngineError Answer → List (Except EngineError Row)
  | .ok a => a.rows
  | .error x => [.error x]

end Answer

/-- The rows in front of the first failure. -/
def beforeFailure : List (Except EngineError Row) → List Row
  | .ok row :: rest => row :: beforeFailure rest
  | _ => []

/-- The first failure. -/
def firstFailure : List (Except EngineError Row) → Option EngineError
  | .ok _ :: rest => firstFailure rest
  | .error x :: _ => some x
  | [] => none

/-- How printing ends: with a failure, or with all rows. -/
def ending : Option EngineError → Except Fault Unit
  | some x => .error (.ofEngine x)
  | none => .ok ()

theorem beforeFailure_length_le (pending : List (Except EngineError Row)) :
    (beforeFailure pending).length ≤ pending.length := by
  fun_induction beforeFailure pending with
  | case1 row rest ih => exact Nat.succ_le_succ ih
  | case2 pending _ => exact Nat.zero_le _

namespace Session

/-! ### The loop without a bound -/

/-- The loop over the rows of a statement, from what a step has come to until
    the end. The number is that of the rows that it tries to print. -/
inductive Loops (e : Engine) (style : RowStyle) (id : StatementId) :
    Nat → Outcome Bool → Printed → Printing → Prop
  -- The step has failed.
  | failed (f : Fault) (s : Session) (p : Printed) :
      Loops e style id 0 (.error f, s) p (.error f, p, s)
  -- There is no row left.
  | ended (s : Session) (p : Printed) : Loops e style id 0 (.ok false, s) p (.ok (), p, s)
  -- The row cannot be printed.
  | stuck (f : Fault) (s t : Session) (p q : Printed)
      (row : s.printRow style id p = (.error f, q, t)) :
      Loops e style id 1 (.ok true, s) p (.error f, q, t)
  -- The row is printed, and the next step is taken.
  | printed (n : Nat) (s t : Session) (p q : Printed) (r : Printing)
      (row : s.printRow style id p = (.ok (), q, t)) (rest : Loops e style id n (t.step e id) q r) :
      Loops e style id (n + 1) (.ok true, s) p r

/-- The bounded loop comes to the same end as the one without a bound, if it may
    print as many rows. The bound is used up by rows that are printed, or that
    fail to be, and by nothing else. -/
theorem printFrom_of_loops {e : Engine} {style : RowStyle} {id : StatementId} {n : Nat}
    {o : Outcome Bool} {p : Printed} {r : Printing} (h : Loops e style id n o p r) (count : Nat)
    (hn : n ≤ count) : printFrom e style id count o p = r := by
  -- Each turn of the loop takes one off the bound.
  induction h generalizing count with
  | failed f s p => rw [printFrom]
  | ended s p => rw [printFrom]
  | stuck f s t p q row =>
      rcases count with _ | count
      · omega
      · rw [printFrom, row]
  | printed n s t p q r row _ ih =>
      rcases count with _ | count
      · omega
      · rw [printFrom, row]
        exact ih count (Nat.le_of_succ_le_succ hn)

/-! ### The middle of printing -/

/-- An open statement in the middle of being printed. Its cursor can be used,
    and its handle has one share for the statement and one for the view that is
    held. -/
structure Prints (s : Session) (id : StatementId) (st : Statement) (handle : Handle)
    (past : List Request) (connected : ConnectionId → Bool) (held : Option ViewId) : Prop where
  stands : s.Stands id st { handle with shares := 1 + held.toList.length } past connected
  holding : st.holding = true
  undone : st.done = false
  usable : handle.cursor.refusal? (connected handle.cursor.connection) = none
  unfinalized : handle.finalized = false
  held : ∀ v ∈ held, ∃ i, s.views[v]? = some ⟨st.handle, i, true⟩

/-- A view of a handle with more shares takes just its own share with it. -/
theorem releaseView_shared (s : Session) (v : ViewId) (h : HandleId) (i : Int) (handle : Handle)
    (hv : s.views[v]? = some ⟨h, i, true⟩) (hh : s.handles[h]? = some handle)
    (unfinalized : handle.finalized = false) (shared : 1 < handle.shares) :
    s.releaseView v = (s.onView v fun view => { view with holding := false }).onHandle h
      fun handle => { handle with shares := handle.shares - 1 } := by
  have hh' : (s.onView v fun view => { view with holding := false }).handles[h]? = some handle := hh
  simp only [releaseView, hv, if_true, release, hh', unfinalized, Bool.false_eq_true, if_false,
    Nat.not_le.mpr shared]

section

variable {s : Session} {id : StatementId} {st : Statement} {handle : Handle} {past : List Request}
  {connected : ConnectionId → Bool} {p : Printed}

/-- Whichever view is held, two shares are left when it is given up, and other
    views stay. There are three shares at this point, so giving one up does not
    finalize the handle; if no view was held there are two, and nothing is given
    up. -/
theorem Stands.releaseHeld
    (hs : s.Stands id st { handle with shares := 1 + p.held.toList.length + 1 } past connected)
    (unfinalized : handle.finalized = false)
    (held : ∀ v ∈ p.held, ∃ i, s.views[v]? = some ⟨st.handle, i, true⟩) :
    (s.releaseHeld p).Stands id st { handle with shares := 2 } past connected ∧
      ∀ v view, v ∉ p.held → s.views[v]? = some view →
        (s.releaseHeld p).views[v]? = some view := by
  unfold Session.releaseHeld
  rcases hheld : p.held with _ | w
  · rw [hheld] at hs
    exact ⟨hs, fun v view _ hview => hview⟩
  · rw [hheld] at hs
    rcases held w hheld with ⟨j, hw⟩
    have hh := ((statement?_eq_some_iff s id _ _).mp hs.found).2
    simp only []
    rw [releaseView_shared s w st.handle j _ hw hh unfinalized (show 1 < 1 + 1 + 1 by omega)]
    have given : (s.onView w fun view => { view with holding := false }).Stands id st
        { handle with shares := 1 + 1 + 1 } past connected := ⟨hs.found, hs.past, hs.connected⟩
    refine ⟨given.onHandle _, fun v view hother hview => ?_⟩
    -- Only the view that is given up is changed.
    have hkept := getElem?_modify_of_some s.views (fun view => { view with holding := false }) w v
      view hview
    rw [if_neg fun hsame => hother (congrArg some hsame)] at hkept
    exact hkept

/-- The next view is made before the last one is given up. For a moment there
    are three shares, and then two again, so between two cells the handle is as
    it was before, but for which view is held. -/
theorem Prints.moveOn (hs : s.Prints id st handle past connected p.held) (i : Int) :
    ((s.newView st.handle i).2.releaseHeld p).Prints id st handle past connected
        (some s.views.length) ∧
      ((s.newView st.handle i).2.releaseHeld p).views[s.views.length]? =
        some ⟨st.handle, i, true⟩ := by
  have hh := ((statement?_eq_some_iff s id _ _).mp hs.stands.found).2
  have shared := hs.stands.onHandle fun h => { h with shares := h.shares + 1 }
  have made : (s.newView st.handle i).2.Stands id st
      { handle with shares := 1 + p.held.toList.length + 1 } past connected :=
    ⟨shared.found, shared.past, shared.connected⟩
  have held : ∀ v ∈ p.held, ∃ j, (s.newView st.handle i).2.views[v]? =
      some ⟨st.handle, j, true⟩ := by
    intro v hv
    rcases hs.held v hv with ⟨j, hview⟩
    exact ⟨j, getElem?_concat_of_some _ _ _ _ hview⟩
  -- The view that was held is an earlier one.
  have hother : s.views.length ∉ p.held := by
    intro hv
    rcases hs.held _ hv with ⟨j, hview⟩
    exact Nat.lt_irrefl _ (List.getElem?_eq_some_iff.mp hview).1
  rcases made.releaseHeld hs.unfinalized held with ⟨stands, hkept⟩
  have hview := hkept _ _ hother (newView_found s st.handle _ hh i).1
  refine ⟨⟨stands, hs.holding, hs.undone, hs.usable, hs.unfinalized, ?_⟩, hview⟩
  rintro v ⟨⟩
  exact ⟨i, hview⟩

/-! ### Printing a row -/

/-- A cell that the row admits is printed: the tab in front, the text of the
    cell, and the view moved on to the new one. -/
theorem printCell_prints (style : RowStyle) (hs : s.Prints id st handle past connected p.held)
    (wide : handle.Wide) (k : Nat) (c : Cell) (hcell : admitted handle.row k = .ok c)
    (hc : c.IsDelivered) :
    ∃ q t, s.printCell style id k p = (.ok (), q, t) ∧ q.rows = p.rows ∧
      p.output.Grows q.output ((if k = 0 then [] else [9]) ++ style.cellBytes c) ∧
      t.Prints id st handle past connected q.held := by
  -- Whether there is a tab makes no difference to the view that is held.
  have htab : ∃ q, (if k = 0 then p else p.write RowStyle.tab) = q ∧ q.held = p.held ∧
      q.rows = p.rows ∧ p.output.Grows q.output (if k = 0 then [] else [9]) := by
    by_cases hk : k = 0
    · rw [if_pos hk, if_pos hk]
      exact ⟨p, rfl, rfl, rfl, .refl p.output⟩
    · rw [if_neg hk, if_neg hk]
      exact ⟨_, rfl, rfl, rfl, .append p.output RowStyle.encode_tab⟩
  rcases htab with ⟨q, hq, hheld, hrows, hgrows⟩
  rw [← hheld] at hs
  rcases hs.moveOn k with ⟨hprints, hview⟩
  have hget := getColumn_index hs.stands.found wide k
  rw [hcell] at hget
  have hh := ((statement?_eq_some_iff _ id _ _).mp hprints.stands.found).2
  have hcolumn := column?_shares _ _ st.handle k handle _ hview hh
  rcases style.cell_bytes (handle.column s.views.length k) c (Handle.cellAt_admitted hcell).1 hc
    with ⟨text, htext, hbytes⟩
  refine ⟨({ q with held := some s.views.length } : Printed).write text, _, ?_, hrows,
    hgrows.trans (.append q.output hbytes), hprints⟩
  simp only [printCell, hq, hget, hcolumn, htext]

/-- The cells of a row are printed, those from any place on. The induction is on
    the cells that are left, and the ones in front of them are kept, because a
    cell is found by its index in the whole row. -/
theorem printCells_prints (style : RowStyle) (wide : handle.Wide) (cells before : List Cell)
    (hrow : handle.row = some (before ++ cells)) (hcells : ∀ c ∈ cells, c.IsDelivered)
    (hs : s.Prints id st handle past connected p.held) :
    ∃ q t, s.printCells style id (List.range' before.length cells.length) p = (.ok (), q, t) ∧
      q.rows = p.rows ∧
      p.output.Grows q.output (tabbed before.length (cells.map style.cellBytes)) ∧
      t.Prints id st handle past connected q.held := by
  induction cells generalizing before s p with
  | nil => exact ⟨p, s, rfl, rfl, .refl p.output, hs⟩
  | cons c rest ih =>
      rcases List.forall_mem_cons.mp hcells with ⟨hc, hrest⟩
      have hplace : before.length < (before ++ c :: rest).length := by
        rw [List.length_append, List.length_cons]
        omega
      have hcell : admitted handle.row before.length = .ok c := by
        rw [admitted_within hrow hplace]
        exact congrArg Except.ok (List.getElem_of_append rfl rfl)
      rcases printCell_prints style hs wide before.length c hcell hc with
        ⟨q, t, hprinted, hrows, hgrows, hprints⟩
      -- The cell goes to those in front, so that the index of the next one is
      -- right again.
      have hsplit : before ++ c :: rest = (before ++ [c]) ++ rest := by
        rw [List.append_assoc]
        rfl
      rw [hsplit] at hrow
      rcases ih (before ++ [c]) hrow hrest hprints with ⟨q', t', hothers, hrows', hgrows', hprints'⟩
      rw [List.length_append, List.length_singleton] at hothers hgrows'
      refine ⟨q', t', ?_, hrows'.trans hrows, hgrows.trans hgrows', hprints'⟩
      rw [List.length_cons, List.range'_succ, printCells, hprinted]
      exact hothers

/-- A row is the line in front, its cells and a line feed. It only counts as
    printed when the line feed is. -/
theorem printRow_of_cells (style : RowStyle) (found : s.statement? id = some (st, handle))
    {q : Printed} {t : Session}
    (printed : s.printCells style id (List.range handle.columnCount)
      (p.write (style.headerLine handle.columnNames p.rows)) = (.ok (), q, t)) :
    s.printRow style id p = (.ok (), { q.write RowStyle.newline with rows := q.rows + 1 }, t) := by
  simp only [printRow, found, printed]

/-- A row is printed as a line, the names in front of it if it is the first one.
    The row is as wide as the result, so the indices that are gone through are
    those of its cells. -/
theorem printRow_prints (style : RowStyle) (wide : handle.Wide) (row : Row)
    (hrow : handle.row = some row) (hcells : ∀ c ∈ row, c.IsDelivered)
    (hnames : style.header = true → ∀ name ∈ handle.columnNames, name.IsEncodable)
    (hs : s.Prints id st handle past connected p.held) :
    ∃ q t, s.printRow style id p = (.ok (), q, t) ∧ q.rows = p.rows + 1 ∧
      p.output.Grows q.output
        ((if style.header && p.rows == 0 then RowStyle.nameLine handle.columnNames else []) ++
          line (row.map style.cellBytes)) ∧
      t.Prints id st handle past connected q.held := by
  have hheader := style.headerLine_bytes handle.columnNames p.rows hnames
  have hs' : s.Prints id st handle past connected
      (p.write (style.headerLine handle.columnNames p.rows)).held := hs
  rcases printCells_prints style wide row [] hrow hcells hs' with
    ⟨q, t, hprinted, hrows, hgrows, hprints⟩
  rw [List.length_nil, wide row hrow, ← List.range_eq_range'] at hprinted
  rw [List.length_nil, tabbed_zero] at hgrows
  exact ⟨_, t, printRow_of_cells style hs.stands.found hprinted, congrArg (· + 1) hrows,
    (Text.Grows.append p.output hheader).trans (hgrows.trans (.append _ RowStyle.encode_newline)),
    hprints⟩

end

/-! ### Printing all rows -/

/-- What the steps from here on come to. -/
def outlook (e : Engine) (s : Session) (st : Statement) (handle : Handle) :
    List (Except EngineError Row) :=
  match s.readied e st handle with
  | .ok c => c.pending
  | .error x => [.error x]

/-- The names of the columns that the next row comes with. -/
def heading (e : Engine) (s : Session) (st : Statement) (handle : Handle) : List Text :=
  match s.readied e st handle with
  | .ok c => c.columns.getD []
  | .error _ => []

section

variable {e : Engine} {s : Session} {id : StatementId} {st : Statement} {handle : Handle}
  {past : List Request} {connected : ConnectionId → Bool} {held : Option ViewId}

theorem outlook_of_readied {c : Cursor} (ready : s.readied e st handle = .ok c) :
    s.outlook e st handle = c.pending ∧ s.heading e st handle = c.columns.getD [] := by
  simp only [outlook, heading, ready, and_self]

theorem outlook_of_failed {x : EngineError} (failed : s.readied e st handle = .error x) :
    s.outlook e st handle = [.error x] := by
  simp only [outlook, failed]

/-- The engine is not asked again once a statement has started; what is to come
    is what its cursor has left. -/
theorem outlook_started (e : Engine) (s : Session) (st : Statement) (handle : Handle)
    (started : st.started = true) :
    s.outlook e st handle = handle.cursor.pending ∧
      s.heading e st handle = handle.columnNames :=
  outlook_of_readied (by rw [readied, if_pos started])

/-- In the middle of printing the cursor refuses nothing: it is open, and so is
    its connection. -/
theorem Prints.refusal (hs : s.Prints id st handle past connected held) :
    s.refusal? handle = none := by
  rw [refusal?, hs.stands.connected]
  exact hs.usable

/-- A step keeps the view that is held, as it makes no views and releases
    none. -/
theorem Prints.held_step (hs : s.Prints id st handle past connected held) (e : Engine) :
    ∀ v ∈ held, ∃ i, (s.step e id).2.views[v]? = some ⟨st.handle, i, true⟩ := by
  intro v hv
  rcases hs.held v hv with ⟨i, hview⟩
  rcases (step_leads e id s).view_kept v _ hview with ⟨view, hkept, hhandle, -, hholding⟩
  refine ⟨view.index, ?_⟩
  rw [hkept, ← show view.handle = st.handle from hhandle,
    ← show view.holding = true from hholding fun released => released]

/-- A step in the middle of printing comes to what is next in the outlook. If
    that is a row, the rest of the outlook is left, and the statement is still
    in the middle of being printed. If it is a failure or the end, the loop ends
    with it, so nothing has to be known of the state that it leaves. -/
theorem step_prints (e : Engine) (hs : s.Prints id st handle past connected held) :
    match s.outlook e st handle with
    | [] => (s.step e id).1 = .ok false
    | .error x :: _ => (s.step e id).1 = .error (.ofEngine x)
    | .ok row :: rest => (s.step e id).1 = .ok true ∧
      ∃ st' handle' past', (s.step e id).2.Prints id st' handle' past' connected held ∧
        st'.started = true ∧ handle'.row = some row ∧ handle'.cursor.pending = rest ∧
        handle'.columnNames = s.heading e st handle := by
  rcases step_turn e s id st _ hs.stands.found hs.holding with
    ⟨asked, st', handle', turn, stands⟩
  rw [hs.stands.connected] at stands
  have hheld := hs.held_step e
  generalize (s.step e id).1 = answer at turn ⊢
  cases turn with
  | completed done =>
      rw [hs.undone] at done
      cases done
  -- What prints is not done, and its cursor can be used.
  | refused x _ refusal => cases hs.refusal.symm.trans refusal
  | unexecuted x _ _ failed =>
      have houtlook : s.outlook e st handle = [.error x] := outlook_of_failed failed
      rw [houtlook]
  | ended c _ _ ready pending =>
      have houtlook : s.outlook e st handle = c.pending := (outlook_of_readied ready).1
      rw [houtlook, pending]
  | failed c x rest _ _ ready pending =>
      have houtlook : s.outlook e st handle = c.pending := (outlook_of_readied ready).1
      rw [houtlook, pending]
  | arrived c row rest _ _ ready pending =>
      have houtlook : s.outlook e st handle = c.pending ∧
        s.heading e st handle = c.columns.getD [] := outlook_of_readied ready
      rcases readied_cursor ready with ⟨hconnection, hclosed⟩
      -- The row was fetched from a cursor that can be used again for the next
      -- one.
      have husable : c.refusal? (connected c.connection) = none := by
        simp only [Cursor.refusal?, hconnection, hclosed]
        exact hs.usable
      rw [houtlook.1, houtlook.2, pending]
      exact ⟨rfl, { st with started := true },
        { handle with cursor := { c with pending := rest }, row := some row }, _,
        ⟨stands, hs.holding, hs.undone, husable, hs.unfinalized, hheld⟩, rfl, rfl, rfl, rfl⟩

/-- All rows are printed, and then printing ends as the outlook says. The
    induction is on the outlook, for every state in the middle of printing: a
    step takes the first thing off it, and a row leads to another such state
    with the rest. -/
theorem loops_prints (style : RowStyle) (names : List Text)
    (hnames : style.header = true → ∀ name ∈ names, name.IsEncodable)
    (pending : List (Except EngineError Row))
    (fit : ∀ row ∈ beforeFailure pending, row.length = names.length ∧ ∀ c ∈ row, c.IsDelivered)
    {p : Printed} (hs : s.Prints id st handle past connected p.held)
    (houtlook : s.outlook e st handle = pending) (hheading : s.heading e st handle = names) :
    ∃ q t, Loops e style id (beforeFailure pending).length (s.step e id) p
        (ending (firstFailure pending), q, t) ∧
      q.rows = p.rows + (beforeFailure pending).length ∧
      p.output.Grows q.output (style.pageFrom names p.rows (beforeFailure pending)) := by
  induction pending generalizing s st handle past p with
  | nil =>
      have hstep := step_prints e hs
      rcases hstepped : s.step e id with ⟨answer, t⟩
      rw [houtlook, hstepped] at hstep
      rw [show answer = .ok false from hstep]
      exact ⟨p, t, .ended t p, rfl, .refl p.output⟩
  | cons next rest ih =>
      have hstep := step_prints e hs
      rcases hstepped : s.step e id with ⟨answer, t⟩
      rw [houtlook, hstepped] at hstep
      rcases next with x | row
      · rw [show answer = .error (.ofEngine x) from hstep]
        exact ⟨p, t, .failed (.ofEngine x) t p, rfl, .refl p.output⟩
      · rcases hstep with
          ⟨hanswer, st', handle', past', hprints, hstarted, hrow, hleft, hcolumns⟩
        rcases List.forall_mem_cons.mp fit with ⟨⟨hwidth, hcells⟩, hothers⟩
        rw [hheading] at hcolumns
        -- The row that has come is as wide as the names, because the engine's
        -- rows are.
        have wide : handle'.Wide := by
          intro r hr
          rw [hrow, Option.some.injEq] at hr
          rw [← hr, Handle.columnCount, hcolumns]
          exact hwidth
        rcases printRow_prints style wide row hrow hcells (hcolumns.symm ▸ hnames) hprints with
          ⟨q, u, hprinted, hrows, hgrows, hprints'⟩
        rcases outlook_started e u st' handle' hstarted with ⟨houtlook', hheading'⟩
        rcases ih hothers hprints' (houtlook'.trans hleft) (hheading'.trans hcolumns) with
          ⟨q', t', hloops, hrows', hgrows'⟩
        rw [hrows] at hrows' hgrows'
        rw [hcolumns] at hgrows
        refine ⟨q', t', ?_, ?_, hgrows.trans hgrows'⟩
        · rw [show answer = .ok true from hanswer]
          exact .printed _ t u p q _ hprinted hloops
        · rw [hrows', beforeFailure, List.length_cons]
          omega

end

/-- The bound that is known after the first step allows for all rows. It counts
    what the cursor has left then, and the first row was taken off before. -/
theorem rows_bounded (e : Engine) {s : Session} {id : StatementId} {st : Statement}
    {handle : Handle} {past : List Request} {connected : ConnectionId → Bool}
    {held : Option ViewId} (hs : s.Prints id st handle past connected held) :
    (beforeFailure (s.outlook e st handle)).length ≤ (s.step e id).2.remaining id + 1 := by
  have hstep := step_prints e hs
  rcases hpending : s.outlook e st handle with _ | ⟨x | row, rest⟩
  · exact Nat.zero_le _
  · exact Nat.zero_le _
  · rw [hpending] at hstep
    rcases hstep with ⟨-, st', handle', past', hprints, -, -, hleft, -⟩
    have hremaining : (s.step e id).2.remaining id = rest.length := by
      rw [← hleft]
      simp only [remaining, hprints.stands.found]
    rw [hremaining, beforeFailure, List.length_cons]
    exact Nat.succ_le_succ (beforeFailure_length_le rest)

/-- A statement that was just made is in the middle of being printed, with
    nothing printed yet. What its steps come to is what its execution will come
    to, since making a statement asks the engine nothing. -/
theorem newStatement_prints (e : Engine) (s : Session) (k : ConnectionId) (sql : Sql)
    (hconnected : s.isConnected k = true) :
    (s.newStatement k sql .empty).2.Prints s.statements.length
        (.fresh s.handles.length sql .empty) (.fresh k sql) s.past s.isConnected none ∧
      (s.newStatement k sql .empty).2.outlook e (.fresh s.handles.length sql .empty)
        (.fresh k sql) = Answer.yields (e.execute s.past sql .empty) ∧
      (s.newStatement k sql .empty).2.heading e (.fresh s.handles.length sql .empty)
        (.fresh k sql) = Answer.names (e.execute s.past sql .empty) := by
  have hready : (s.newStatement k sql .empty).2.readied e (.fresh s.handles.length sql .empty)
      (.fresh k sql) = (e.execute s.past sql .empty).map (Cursor.fresh k).cleared.holding := rfl
  refine ⟨⟨⟨newStatement_found k sql .empty s, rfl, rfl⟩, rfl, rfl, ?_, rfl, ?_⟩, ?_, ?_⟩
  · show (Cursor.fresh k).refusal? (s.isConnected k) = none
    rw [hconnected]
    rfl
  · rintro v ⟨⟩
  · rw [outlook, hready]
    rcases e.execute s.past sql .empty with x | a
    · rfl
    · rfl
  · rw [heading, hready]
    rcases e.execute s.past sql .empty with x | a
    · rfl
    · rfl

/-- The rows of some SQL are printed exactly. Let the database be open, and let
    the engine's rows be as wide as their result and of cells that engines
    deliver, under names that can be encoded. Then the loop comes to an end, and
    what it has written are the rows in front of the first failure, whether that
    is one of the execution or of a fetch, with the names in front if there is a
    row. A failure of the database is reported as an error of the library.

    The first part is about the loop without a bound, so that it ends is a
    result and not a convention. What lies behind the first failure is not asked
    for and does not matter. -/
theorem printRows_exact (e : Engine) (style : RowStyle) (sql : Sql) (s : Session)
    (k : ConnectionId) (hopen : s.database.connection = some k)
    (hconnected : s.isConnected k = true) (answer : Except EngineError Answer)
    (hanswer : e.execute s.past sql .empty = answer)
    (fit : ∀ row ∈ beforeFailure (Answer.yields answer),
      row.length = (Answer.names answer).length ∧ ∀ c ∈ row, c.IsDelivered)
    (hnames : style.header = true → ∀ name ∈ Answer.names answer, name.IsEncodable) :
    ∃ p t,
      Loops e style s.statements.length (beforeFailure (Answer.yields answer)).length
        ((s.newStatement k sql .empty).2.step e s.statements.length) .empty
        (ending (firstFailure (Answer.yields answer)), p, t) ∧
      s.printRows e style sql = (ending (firstFailure (Answer.yields answer)), p,
        t.closeStatement s.statements.length) ∧
      p.rows = (beforeFailure (Answer.yields answer)).length ∧
      Text.encode p.output =
        some (style.page (Answer.names answer) (beforeFailure (Answer.yields answer))) ∧
      ∀ x, firstFailure (Answer.yields answer) = some x → x.isDatabaseFailure = true →
        (s.printRows e style sql).1 = .error (.access (.ofEngine x)) := by
  rcases newStatement_prints e s k sql hconnected with ⟨hprints, houtlook, hheading⟩
  rw [hanswer] at houtlook hheading
  rcases loops_prints style _ hnames _ fit (p := .empty) hprints houtlook hheading with
    ⟨p, t, hloops, hrows, hgrows⟩
  -- There are enough steps for the loop to end by itself.
  have hbound := rows_bounded e hprints
  rw [houtlook] at hbound
  have hprinted : s.printRows e style sql = (ending (firstFailure (Answer.yields answer)), p,
      t.closeStatement s.statements.length) := by
    have hall : (s.newStatement k sql .empty).2.printAll e style s.statements.length =
        (ending (firstFailure (Answer.yields answer)), p, t) := printFrom_of_loops hloops _ hbound
    simp only [printRows, prepare, hopen]
    exact congrArg (fun r : Printing => (r.1, r.2.1, r.2.2.closeStatement s.statements.length)) hall
  refine ⟨p, t, hloops, hprinted, hrows.trans (Nat.zero_add _), ?_, ?_⟩
  · rw [← RowStyle.pageFrom_zero]
    exact hgrows.encode
  · intro x hx hdatabase
    rw [hprinted, hx]
    simp only [ending, Fault.ofEngine, hdatabase, if_true]

end Session

/-- Two columns and two rows, with a failure behind them and one more row that
    is out of reach. -/
def Engine.flawed : Engine where
  connect _ _ := none
  pragma _ _ := none
  script _ _ := (0, none)
  execute _ _ _ := .ok ⟨some [[0x61], [0x62]],
    [.ok [.integer (-7), .text (Text.decode [0xFF])], .ok [.null, .blob [0x00]],
      .error ⟨.operational, [], none, none⟩, .ok [.null, .null]], -1, 0⟩

namespace Session

/-- The line of names and two lines are printed, the stray byte and the NUL as
    they are. -/
theorem printRows_exact_flawed :
    ∃ p t, (unopened.run .flawed [.openDatabase]).2.printRows .flawed ⟨true, true⟩ (.text []) =
        (.error (.access (.ofEngine ⟨.operational, [], none, none⟩)), p, t) ∧ p.rows = 2 ∧
      Text.encode p.output = some ("a\tb\n-7:INTEGER\t".toUTF8.toList ++ [0xFF] ++
        ":TEXT\n:NULL\t\x00:BLOB\n".toUTF8.toList) := by
  have hnames : ∀ name ∈ [[0x61], [0x62]], Text.IsEncodable name := by
    intro name hname c hc
    simp only [List.mem_cons, List.not_mem_nil, or_false] at hname
    rcases hname with rfl | rfl
    all_goals
      rw [List.mem_singleton.mp hc]
      decide
  have fit : ∀ row ∈ [[.integer (-7), .text (Text.decode [0xFF])], [.null, .blob [0x00]]],
      row.length = 2 ∧ ∀ c ∈ row, Cell.IsDelivered c := by
    intro row hrow
    simp only [List.mem_cons, List.not_mem_nil, or_false] at hrow
    rcases hrow with rfl | rfl
    · exact ⟨rfl, List.forall_mem_cons.mpr ⟨.integer (-7) (by decide) (by decide),
        List.forall_mem_singleton.mpr (.text [0xFF])⟩⟩
    · exact ⟨rfl, List.forall_mem_cons.mpr ⟨.null, List.forall_mem_singleton.mpr (.blob [0x00])⟩⟩
  rcases printRows_exact .flawed ⟨true, true⟩ (.text []) (unopened.run .flawed [.openDatabase]).2 0
      rfl rfl _ rfl fit (fun _ => hnames) with ⟨p, t, -, hprinted, hrows, houtput, -⟩
  refine ⟨p, _, hprinted, hrows, houtput.trans ?_⟩
  decide +kernel

end Session

end RowScope
