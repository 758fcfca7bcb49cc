import RowScope.Proofs.Session.Delivery
import RowScope.Proofs.Session.Discipline
import RowScope.Proofs.Session.Effects
import RowScope.Proofs.Session.Standing

/-!
# Renewal

A statement that was reset is as good as a new one. It may have leftovers of its
earlier life: a result in its cursor, views that still hold shares, a table of
names. But nobody who steps it, resets it and reads its columns by index can
tell it from a statement that was made just now for the same SQL and parameters,
and neither can the engine. The same holds after a step whose execution has
failed.

The reason is that a statement which has not started has no row, and that its
execution forgets the last result of the cursor before it asks for another one.
So the two cursors differ only as long as nobody can look at them, and from the
first execution on they are the same.

There are two ways to spoil a statement that do not go through it. A share can
be given back that belongs to somebody else, which ends the handle under an open
statement; and a row can be set directly on a statement that has not started,
where a failing execution does not take it away.

## Main definitions

* `Use`: Something that can be done with a statement, whichever it is.
* `Deed.seen`: What can be seen of a deed: its reply, and the demands it has
  made on a cursor.
* `Session.Indistinct`: Two statements cannot be told apart by certain uses.
* `Session.AsNew`: A statement is as good as a new one.
* `Twins`: Two statements with their handles differ in nothing that can be seen.
* `Serves`: An open statement that can be stepped and read.

## Theorems

* `Twins.turned`: One step makes twins of twins.
* `Alike.use`, `Alike.uses`: One use of each shows the same of both, and so do
  several.
* `reset_asNew`: A reset renews a statement, and so does a failed execution.
-/

namespace RowScope

/-- Something that can be done with a statement, whichever it is. -/
inductive Use
  | step
  | exec
  | reset (params : Option Params)
  | hasRow
  | isDone
  | getColumn (index : Int)
  | isColumnNull (index : Int)
  | getColumns (shape : Shape) (count : Int)

/-- The use of one statement. -/
def Use.on (id : StatementId) : Use → Command
  | step => .step id
  | exec => .exec id
  | reset params => .reset id params
  | hasRow => .query (.statementHasRow id)
  | isDone => .query (.isDone id)
  | getColumn index => .getColumn id (.index index)
  | isColumnNull index => .isColumnNull id (.index index)
  | getColumns shape count => .getColumns id shape count

/-- What is demanded of a cursor, whichever it is. -/
inductive Demand
  | execute (sql : Sql) (params : Params)
  | fetch

/-- What a call demands of a cursor. -/
def Call.demand? : Call → Option Demand
  | execute _ sql params => some (.execute sql params)
  | fetch _ => some .fetch
  | _ => none

/-- What can be seen of a deed: its reply, and the demands it has made on a
    cursor. -/
def Deed.seen (e : Engine) (d : Deed) : Reply × List Demand :=
  ((d.before.perform e d.command).1, (d.issued e).filterMap Call.demand?)

namespace Session

/-- Two statements in different sessions cannot be told apart by certain uses:
    not while they are used, not by the engine's side of it, and not by the
    views that the uses have made. -/
structure Indistinct (e : Engine) (s : Session) (id : StatementId) (t : Session) (k : StatementId)
    (uses : List Use) : Prop where
  seen : (s.deeds e (uses.map (Use.on id))).map (Deed.seen e) =
    (t.deeds e (uses.map (Use.on k))).map (Deed.seen e)
  past : (s.run e (uses.map (Use.on id))).2.past = (t.run e (uses.map (Use.on k))).2.past
  views : ∀ v, s.views.length ≤ v →
    (s.run e (uses.map (Use.on id))).2.column? v = (t.run e (uses.map (Use.on k))).2.column? v

/-- A statement cannot be told from one that is made now, in whatever way the
    two are used. -/
def AsNew (e : Engine) (s : Session) (id : StatementId) (sql : Sql) (params : Params) : Prop :=
  ∃ t, s.prepare sql params = (.ok s.statements.length, t) ∧
    ∀ uses, s.Indistinct e id t s.statements.length uses

end Session

/-! ### Twins -/

/-- Two statements that may have different handles and names at hand. -/
structure Statement.Alike (x y : Statement) : Prop where
  sql : x.sql = y.sql
  params : x.params = y.params
  started : x.started = y.started
  done : x.done = y.done

namespace Statement.Alike

variable {x y : Statement}

theorem begun (h : x.Alike y) :
    ({ x with started := true } : Statement).Alike { y with started := true } :=
  ⟨h.sql, h.params, rfl, h.done⟩

theorem finished (h : x.Alike y) :
    ({ x with started := true, done := true } : Statement).Alike
      { y with started := true, done := true } :=
  ⟨h.sql, h.params, rfl, rfl⟩

theorem restarted (h : x.Alike y) (params : Option Params) :
    (x.restarted params).Alike (y.restarted params) :=
  ⟨h.sql, by simp only [Statement.restarted, h.params], rfl, rfl⟩

theorem requests (h : x.Alike y) : x.requests = y.requests := by
  simp only [Statement.requests, h.started, h.sql, h.params]

end Statement.Alike

/-- Two statements with their handles differ in nothing that can be seen. If
    their cursors are different then there is no row, the next step will execute
    both, and nobody has a view. -/
structure Twins (unseen : Prop) (st : Statement) (x : Handle) (su : Statement) (y : Handle) :
    Prop where
  statement : st.Alike su
  row : x.row = y.row
  cleared : x.cursor.cleared = y.cursor.cleared
  cursor : x.cursor = y.cursor ∨ st.started = false ∧ x.row = none ∧ unseen

/-- The demands of a step, by whether it gets to its fetch. -/
def Statement.demands (st : Statement) (begun : Bool) : List Demand :=
  if st.done then []
  else (if st.started then [] else [.execute st.sql st.params]) ++ if begun then [.fetch] else []

/-- The demands of a step are those of its calls, without the handle that the
    calls name. -/
theorem Statement.turnCalls_demands (st : Statement) (begun : Bool) :
    (st.turnCalls begun).filterMap Call.demand? = st.demands begun := by
  unfold turnCalls demands
  by_cases hdone : st.done = true
  · simp only [hdone, if_true, List.filterMap_nil]
  · simp only [hdone, Bool.false_eq_true, if_false, List.filterMap_append]
    -- The execution, and the fetch.
    congr 1
    · by_cases hstarted : st.started = true
      · simp only [hstarted, if_true, List.filterMap_nil]
      · simp only [hstarted, Bool.false_eq_true, if_false, List.filterMap_cons, Call.demand?,
          List.filterMap_nil]
    · cases begun with
      | true => rfl
      | false => rfl

/-- What a failure makes of two handles that have the same cursor by then. -/
theorem Handle.failed_congr (x y : Handle) (row : x.row = y.row) (c : Cursor) (f : EngineError) :
    (({ x with cursor := c } : Handle).failed f).row =
        (({ y with cursor := c } : Handle).failed f).row ∧
      (({ x with cursor := c } : Handle).failed f).cursor =
        (({ y with cursor := c } : Handle).failed f).cursor := by
  unfold Handle.failed
  split
  · exact ⟨rfl, rfl⟩
  · exact ⟨row, rfl⟩

namespace Twins

variable {unseen : Prop} {st su st' su' : Statement} {x y x' y' : Handle}

/-- Twins whose cursors are the same. -/
theorem of_cursor (statement : st.Alike su) (row : x.row = y.row) (cursor : x.cursor = y.cursor) :
    Twins unseen st x su y :=
  ⟨statement, row, congrArg Cursor.cleared cursor, Or.inl cursor⟩

/-- A row that is there can be seen, so the cursors are the same. This is what a
    statement that was renewed has in common with a new one: neither has a
    row. -/
theorem cursor_of_row (h : Twins unseen st x su y) (row : x.hasRow = true) :
    x.cursor = y.cursor := by
  rcases h.cursor with hsame | ⟨-, hnone, -⟩
  · exact hsame
  · rw [Handle.hasRow, hnone] at row
    exact Bool.noConfusion row

/-- The cursors that the next fetches are on are the same. If the statements
    have started the cursors were the same before; if not, both are executed,
    and the execution forgets what they differ in before it asks the engine. -/
theorem readied (h : Twins unseen st x su y) (e : Engine) (s t : Session) (past : s.past = t.past) :
    s.readied e st x = t.readied e su y := by
  unfold Session.readied
  rw [h.statement.started, h.statement.sql, h.statement.params, past, h.cleared]
  by_cases hstarted : su.started = true
  · rw [if_pos hstarted, if_pos hstarted]
    rcases h.cursor with hsame | ⟨hno, -⟩
    · rw [hsame]
    · rw [h.statement.started, hstarted] at hno
      exact Bool.noConfusion hno
  · rw [if_neg hstarted, if_neg hstarted]

/-- One step makes twins of twins, and says the same of both. Whatever comes of
    it, the cursors are the same afterwards, so that twins may differ in their
    cursors at the beginning and never again. A refusal because of completion is
    the exception, after which everything is as it was. -/
theorem turned (h : Twins unseen st x su y) (readied : Except EngineError Cursor)
    {told told' : Except Fault Bool} {asked asked' : List Request}
    (left : st.turned x none readied = (told, asked, st', x'))
    (right : su.turned y none readied = (told', asked', su', y')) :
    told = told' ∧ asked = asked' ∧ Twins unseen st' x' su' y' ∧
      (told = .ok false → x'.cursor = y'.cursor) := by
  unfold Statement.turned at left right
  have hsame := h.statement.done
  by_cases hdone : st.done = true
  · rw [if_pos hdone] at left
    rw [if_pos (hsame.symm.trans hdone)] at right
    cases left
    cases right
    exact ⟨rfl, rfl, h, fun hc => nomatch hc⟩
  · rw [if_neg hdone] at left
    rw [if_neg (fun hc => hdone (hsame.trans hc))] at right
    rcases readied with f | c
    · -- The execution has failed, and both cursors are empty.
      cases left
      cases right
      rcases x.failed_congr y h.row x.cursor.cleared f with ⟨hrow, hcursor⟩
      rw [h.cleared] at hrow hcursor ⊢
      refine ⟨rfl, h.statement.requests, .of_cursor h.statement hrow hcursor, ?_⟩
      intro hc
      cases hc
    · simp only [] at left right
      rcases hpending : c.pending with _ | ⟨f | row, rest⟩
      · simp only [hpending] at left right
        cases left
        cases right
        exact ⟨rfl, h.statement.requests, .of_cursor h.statement.finished rfl rfl, fun _ => rfl⟩
      · simp only [hpending] at left right
        cases left
        cases right
        rcases x.failed_congr y h.row { c with pending := [] } f with ⟨hrow, hcursor⟩
        refine ⟨rfl, h.statement.requests, .of_cursor h.statement.begun hrow hcursor, ?_⟩
        intro hc
        cases hc
      · simp only [hpending] at left right
        cases left
        cases right
        refine ⟨rfl, h.statement.requests, .of_cursor h.statement.begun rfl rfl, ?_⟩
        intro hc
        cases hc

/-- A reset of a statement that serves takes its row and demands nothing. -/
theorem restarted (h : Twins unseen st x su y) (params : Option Params) :
    Twins unseen (st.restarted params) { x with row := none } (su.restarted params)
      { y with row := none } := by
  refine ⟨h.statement.restarted params, rfl, h.cleared, ?_⟩
  rcases h.cursor with hsame | ⟨-, -, hunseen⟩
  · exact Or.inl hsame
  · exact Or.inr ⟨rfl, rfl, hunseen⟩

end Twins

namespace Handle

/-- What is read of a handle is read off its row and its cursor, whoever has
    shares in it. -/
theorem column_congr (x y : Handle) (row : x.row = y.row) (cursor : x.cursor = y.cursor)
    (v : ViewId) (i : Int) : x.column v i = y.column v i := by
  simp only [column, hasRow, cellAt, nameAt, row, cursor]

theorem columnCount_congr (x y : Handle) (cursor : x.cursor = y.cursor) :
    x.columnCount = y.columnCount := by
  simp only [columnCount, columnNames, cursor]

/-- A handle offers the column at an index: there is a row, and the result has
    the column. -/
def offers (h : Handle) (i : Int) : Except Fault Unit :=
  if h.hasRow then Session.checkIndex h i else .error (.access .noCurrentRow)

/-- Whether the column at an index is NULL, if the handle offers it. -/
def nullAt (h : Handle) (i : Int) : Except Fault Bool := do
  h.offers i
  let c ← h.cellAt i
  return (← ofCellReading c.storageClass) == .null

theorem row_of_offers {h : Handle} {i : Int} {u : Unit} (hi : h.offers i = .ok u) :
    h.hasRow = true := by
  unfold offers at hi
  by_cases hrow : h.hasRow = true
  · exact hrow
  · rw [if_neg hrow] at hi
    cases hi

/-- A width is only accepted where there is a row. -/
theorem row_of_width {h : Handle} {count : Int} {n : Nat}
    (hn : Session.checkWidth h count = .ok n) : h.hasRow = true := by
  unfold Session.checkWidth at hn
  by_cases hrow : h.hasRow = true
  · exact hrow
  · simp only [hrow, Bool.not_false, if_true] at hn
    split at hn
    · cases hn
    · cases hn

end Handle

/-- A step neither counts nor releases shares. -/
theorem Turn.shares_kept {e : Engine} {s : Session} {st st' : Statement} {handle handle' : Handle}
    {told : Except Fault Bool} {asked : List Request}
    (turn : Turn e s st handle told asked st' handle') : handle'.shares = handle.shares := by
  cases turn with
  | completed _ => rfl
  | refused f _ _ => exact handle.failed_shares f
  | unexecuted f _ _ _ => exact Handle.failed_shares f _
  | ended _ _ _ _ _ => rfl
  | arrived _ _ _ _ _ _ _ => rfl
  | failed _ f _ _ _ _ _ => exact Handle.failed_shares f _

namespace Twins

variable {unseen : Prop} {st su : Statement} {x y : Handle}

/-- Where there is a row the cursors are the same, and where there is none
    nothing is offered. -/
theorem offers (h : Twins unseen st x su y) (i : Int) : x.offers i = y.offers i := by
  have hsame : x.hasRow = y.hasRow := by
    unfold Handle.hasRow
    rw [h.row]
  unfold Handle.offers Session.checkIndex
  by_cases hrow : x.hasRow = true
  · rw [if_pos hrow, if_pos (hsame.symm.trans hrow),
      x.columnCount_congr y (h.cursor_of_row hrow)]
  · rw [if_neg hrow, if_neg (fun hc => hrow (hsame.trans hc))]

theorem nullAt (h : Twins unseen st x su y) (i : Int) : x.nullAt i = y.nullAt i := by
  unfold Handle.nullAt Handle.cellAt
  rw [h.offers, h.row]

/-- A width is accepted by both or by neither, for the same reason. -/
theorem checkWidth (h : Twins unseen st x su y) (count : Int) :
    Session.checkWidth x count = Session.checkWidth y count := by
  have hsame : x.hasRow = y.hasRow := by
    unfold Handle.hasRow
    rw [h.row]
  unfold Session.checkWidth
  rw [← hsame]
  by_cases hrow : x.hasRow = true
  · rw [x.columnCount_congr y (h.cursor_of_row hrow)]
  · simp only [hrow, Bool.not_false, if_true]

end Twins

/-! ### One side -/

/-- A deed that neither executes nor fetches demands nothing. -/
theorem Deed.seen_quiet (e : Engine) (d : Deed) (hq : d.before.Quietly (d.after e)) :
    d.seen e = ((d.before.perform e d.command).1, []) := by
  rcases hq with ⟨more, hmore, hquiet⟩
  have hnone : more.filterMap Call.demand? = [] := by
    rw [List.filterMap_eq_nil_iff]
    intro k hk
    have hcursor := hquiet k hk
    cases k with
    | execute h sql params => cases hcursor
    | fetch h => cases hcursor
    | _ => rfl
  rw [seen, Deed.issued_eq hmore, hnone]

namespace Session

/-- An open statement that can be stepped and read. The views of a session are
    some from before, and then those that were made of this statement, by their
    indices. -/
structure Serves (connected : ConnectionId → Bool) (base : List (HandleId × Int)) (s : Session)
    (id : StatementId) (st : Statement) (handle : Handle) (past : List Request)
    (made : List Int) : Prop where
  stands : s.Stands id st handle past connected
  holding : st.holding = true
  usable : handle.cursor.refusal? (connected handle.cursor.connection) = none
  live : handle.finalized = false
  shares : 0 < handle.shares
  views : s.views.map View.aim = base ++ made.map fun i => (st.handle, i)

namespace Serves

variable {connected : ConnectionId → Bool} {base : List (HandleId × Int)} {s : Session}
  {id : StatementId} {st : Statement} {handle : Handle} {past : List Request} {made : List Int}

theorem refusal (h : s.Serves connected base id st handle past made) : s.refusal? handle = none :=
  h.stands.refusal.trans h.usable

theorem length (h : s.Serves connected base id st handle past made) :
    s.views.length = base.length + made.length := by
  have hlength := congrArg List.length h.views
  simpa only [List.length_map, List.length_append] using hlength

/-- A step of a statement that serves. It does what the turn of the statement
    says, and leaves it serving, with the requests of the turn behind it; what
    is seen of it are its answer and its demands. -/
theorem stepped (h : s.Serves connected base id st handle past made) (e : Engine) (c : Command)
    (hc : c.stepped? = some id) :
    ∃ told asked st' handle', st.turned handle none (s.readied e st handle) =
        (told, asked, st', handle') ∧
      (s.perform e c).2.Serves connected base id st' handle' (past ++ asked) made ∧
      Deed.seen e ⟨s, c⟩ = (⟨c.told told handle', none⟩,
        st.demands (st.started || (e.execute past st.sql st.params).isOk)) := by
  rcases perform_turn e c s id st handle h.stands.found h.holding hc with
    ⟨told, asked, st', handle', turn, stands, hanswer⟩
  have hturned := turn.eq_turned
  rw [h.refusal] at hturned
  rw [h.stands.past, h.stands.connected] at stands
  refine ⟨told, asked, st', handle', hturned, ?_, ?_⟩
  · rcases turn.statement_kept with ⟨hhandle, -, -, hholding⟩
    have hfin := turn.handle_kept.1
    refine ⟨stands, hholding.trans h.holding, (turn.refusal_kept connected).trans h.usable,
      hfin.trans h.live, ?_, ?_⟩
    · rw [turn.shares_kept]
      exact h.shares
    · rw [perform_stepped e c s id hc, step_views, hhandle]
      exact h.views
  · -- What is demanded was called in this step, and only there.
    have hcalls := step_calls e s id st handle h.stands.found h.holding
    rw [← perform_stepped e c s id hc] at hcalls
    have hmade : (s.perform e c).1.made = none := by
      cases c with
      | step id' => exact plainly_made _ _
      | exec id' => exact plainly_made _ _
      | _ => cases hc
    have hbegins : s.begins e st handle =
        (st.started || (e.execute past st.sql st.params).isOk) := by
      rw [begins, h.refusal, h.stands.past]
      rfl
    rw [Deed.seen, Deed.issued_eq (d := ⟨s, c⟩) hcalls, Statement.turnCalls_demands, hbegins,
      ← hanswer, ← hmade]

theorem restarted (h : s.Serves connected base id st handle past made) (e : Engine)
    (params : Option Params) :
    (s.perform e (.reset id params)).2.Serves connected base id (st.restarted params)
        { handle with row := none } past made ∧
      Deed.seen e ⟨s, .reset id params⟩ = (⟨.ok .null, none⟩, []) := by
  rcases perform_reset e s id st handle h.stands.found h.holding params with ⟨stands, hanswer⟩
  rw [h.stands.past, h.stands.connected] at stands
  have hquiet := perform_quietly e (.reset id params) s rfl rfl (fun _ => Command.noConfusion)
  constructor
  · refine ⟨stands, h.holding, h.usable, h.live, h.shares, ?_⟩
    -- A reset releases the row and not the views, as none of its moves is about
    -- a view.
    have hviews : (s.perform e (.reset id params)).2.views = s.views := by
      simp only [perform, plainly_state]
      refine (reset_leads id params s).views_same ?_
      intro a ha
      cases a with
      | view _ => exact False.elim ha
      | bareView _ => exact False.elim ha
      | release _ => exact False.elim ha
      | _ => trivial
    rw [hviews]
    exact h.views
  · have hmade : (s.perform e (.reset id params)).1.made = none := plainly_made _ _
    rw [Deed.seen_quiet e ⟨s, .reset id params⟩ hquiet, ← hanswer, ← hmade]

/-- New views of the statement. -/
theorem viewed (h : s.Serves connected base id st handle past made) (is : List Nat) :
    (s.newViews st.handle is).2.Serves connected base id st
      { handle with shares := handle.shares + is.length } past
      (made ++ is.map fun (i : Nat) => (i : Int)) := by
  have hstands := h.stands.onHandle fun x => { x with shares := x.shares + is.length }
  rw [newViews_eq]
  refine ⟨⟨hstands.found, hstands.past, hstands.connected⟩, h.holding, h.usable, h.live, ?_, ?_⟩
  · exact Nat.lt_of_lt_of_le h.shares (Nat.le_add_right _ _)
  · simp only [List.map_append, h.views, List.map_map, List.append_assoc]
    rfl

/-- One new view, whose index need not be checked to be one. -/
theorem viewedAt (h : s.Serves connected base id st handle past made) (i : Int) :
    (s.newView st.handle i).2.Serves connected base id st
      { handle with shares := handle.shares + 1 } past (made ++ [i]) := by
  have hstands := h.stands.onHandle fun x => { x with shares := x.shares + 1 }
  refine ⟨⟨hstands.found, hstands.past, hstands.connected⟩, h.holding, h.usable, h.live,
    Nat.succ_pos _, ?_⟩
  have hviews : (s.newView st.handle i).2.views.map View.aim =
      s.views.map View.aim ++ [(st.handle, i)] := List.map_append
  rw [hviews, h.views, List.append_assoc, List.map_append]
  rfl

/-- Views that are given up, as long as the statement has more shares than that.
    No share is the last one then, so the handle stays live, whatever views they
    are. -/
theorem released (h : s.Serves connected base id st handle past made) (vs : List ViewId)
    (enough : vs.length < handle.shares) :
    ∃ shares, (s.releaseViews vs).Serves connected base id st
      { handle with shares := shares } past made := by
  rcases (statement?_eq_some_iff s id st handle).mp h.stands.found with ⟨hst, hh⟩
  rcases releaseViews_counted vs s st.handle handle hh h.live enough with ⟨shares, hhandle, hleft⟩
  rcases (releaseViews_leads (fun a => ∃ v, a = .release v) vs (fun v _ => ⟨v, rfl⟩)
    s).surroundings (fun ⟨_, hc⟩ => Touch.noConfusion hc) with ⟨hpast, hconnections⟩
  have hshares : 0 < shares := by omega
  refine ⟨shares, ⟨?_, hpast.trans h.stands.past, ?_⟩, h.holding, h.usable, h.live, hshares, ?_⟩
  · rw [statement?_eq_some_iff, releaseViews_statements]
    exact ⟨hst, hhandle⟩
  · rw [← h.stands.connected]
    funext c
    simp only [isConnected, hconnections]
  · rw [releaseViews_aims]
    exact h.views

/-- A view that was made of the statement finds what the handle has. Views of
    before are none of its own, so nothing is said of them. -/
theorem column?_made (h : s.Serves connected base id st handle past made) (v : ViewId)
    (hv : base.length ≤ v) :
    s.column? v = (made[v - base.length]?).map fun i => handle.column v i := by
  have hh := ((statement?_eq_some_iff s id st handle).mp h.stands.found).2
  have haim : (s.views[v]?).map View.aim =
      (made[v - base.length]?).map fun i => (st.handle, i) := by
    rw [← List.getElem?_map, h.views, List.getElem?_append_right hv, List.getElem?_map]
  rcases hi : made[v - base.length]? with _ | i
  · rw [hi, Option.map_none, Option.map_eq_none_iff] at haim
    simp only [column?, haim, Option.bind_eq_bind, Option.bind_none, Option.map_none]
  · rw [hi, Option.map_some, Option.map_eq_some_iff] at haim
    rcases haim with ⟨view, hview, haim⟩
    rcases Prod.mk.inj haim with ⟨hhandle, hindex⟩
    simp only [column?, hview, hhandle, hh, hindex, Option.bind_eq_bind, Option.bind_some,
      Option.pure_def, Option.map_some]

end Serves

/-! ### Both sides -/

section

variable {s : Session} {id : StatementId} {st : Statement} {handle : Handle}
  (found : s.statement? id = some (st, handle))

include found

theorem askStatement_found (f : Statement → Handle → Value) :
    s.askStatement id f = .ok (f st handle) := by
  simp only [askStatement, found]

/-- A column is asked for by its index, which changes no table of names: either
    the handle offers it, and a view is made, or nothing is. -/
theorem getColumn_at (i : Int) :
    s.getColumn id (.index i) = match handle.offers i with
      | .error f => (.error f, s)
      | .ok () => (.ok s.views.length, (s.newView st.handle i).2) := by
  simp only [getColumn, found, locate, Handle.offers]
  rcases handle.hasRow with _ | _
  · rfl
  · simp only [Bool.not_true, Bool.false_eq_true, if_false, if_true]
    rcases checkIndex handle i with f | ok
    · rfl
    · rfl

/-- Whether a column is NULL, by its index, is read off the handle. -/
theorem isColumnNull_at (i : Int) : s.isColumnNull id (.index i) = (handle.nullAt i, s) := by
  simp only [isColumnNull, found, locate, Handle.nullAt, Handle.offers]
  rcases handle.hasRow with _ | _
  · rfl
  · simp only [Bool.not_true, Bool.false_eq_true, if_false, if_true]
    rcases checkIndex handle i with f | ok
    · rfl
    · rfl

end

theorem making_reply {α : Type} (value : α → Value) (made : α → Made) {o o' : Outcome α}
    (same : o.1 = o'.1) : (making value made o).1 = (making value made o').1 := by
  rcases o with ⟨answer, s⟩
  rcases o' with ⟨answer', s'⟩
  obtain rfl : answer = answer' := same
  rcases answer with f | a
  · rfl
  · rfl

/-- Two statements in two sessions, neither of which can be told from the
    other. -/
inductive Alike (connected : ConnectionId → Bool) (base : List (HandleId × Int)) (s : Session)
    (id : StatementId) (t : Session) (k : StatementId) : Prop
  | intro {st su : Statement} {x y : Handle} {past : List Request} {made : List Int}
      (left : s.Serves connected base id st x past made)
      (right : t.Serves connected base k su y past made)
      (twins : Twins (made = []) st x su y)

namespace Alike

variable {connected : ConnectionId → Bool} {base : List (HandleId × Int)} {s t : Session}
  {id k : StatementId}

/-- A step of each. How the answer is reported may depend on the cursor once the
    end is reached. -/
theorem stepped (h : Alike connected base s id t k) (e : Engine) (c c' : Command)
    (hc : c.stepped? = some id) (hc' : c'.stepped? = some k)
    (same : ∀ told x y, (told = .ok false → x.cursor = y.cursor) → c.told told x = c'.told told y) :
    Alike connected base (s.perform e c).2 id (t.perform e c').2 k ∧
      Deed.seen e ⟨s, c⟩ = Deed.seen e ⟨t, c'⟩ := by
  rcases h with ⟨left, right, twins⟩
  rcases left.stepped e c hc with ⟨told, asked, st', x', hturned, hleft, hseen⟩
  rcases right.stepped e c' hc' with ⟨told', asked', su', y', hturned', hright, hseen'⟩
  rw [← twins.readied e s t (left.stands.past.trans right.stands.past.symm)] at hturned'
  rcases twins.turned _ hturned hturned' with ⟨rfl, rfl, htwins, hend⟩
  refine ⟨⟨hleft, hright, htwins⟩, ?_⟩
  rw [hseen, hseen', same told x' y' hend, twins.statement.started, twins.statement.sql,
    twins.statement.params]
  unfold Statement.demands
  rw [twins.statement.done, twins.statement.started, twins.statement.sql, twins.statement.params]

/-- A look at each that changes neither. -/
theorem looked (h : Alike connected base s id t k) (e : Engine) (c c' : Command) (reply : Reply)
    (left : s.perform e c = (reply, s)) (right : t.perform e c' = (reply, t)) :
    Alike connected base (s.perform e c).2 id (t.perform e c').2 k ∧
      Deed.seen e ⟨s, c⟩ = Deed.seen e ⟨t, c'⟩ := by
  have hquiet : s.Quietly (s.perform e c).2 := by
    rw [left]
    exact .refl s
  have hquiet' : t.Quietly (t.perform e c').2 := by
    rw [right]
    exact .refl t
  have hseen := Deed.seen_quiet e ⟨s, c⟩ hquiet
  have hseen' := Deed.seen_quiet e ⟨t, c'⟩ hquiet'
  rw [left] at hseen ⊢
  rw [right] at hseen' ⊢
  exact ⟨h, hseen.trans hseen'.symm⟩

theorem reset (h : Alike connected base s id t k) (e : Engine) (params : Option Params) :
    Alike connected base (s.perform e (.reset id params)).2 id (t.perform e (.reset k params)).2 k ∧
      Deed.seen e ⟨s, .reset id params⟩ = Deed.seen e ⟨t, .reset k params⟩ := by
  rcases h with ⟨left, right, twins⟩
  rcases left.restarted e params with ⟨hleft, hseen⟩
  rcases right.restarted e params with ⟨hright, hseen'⟩
  exact ⟨⟨hleft, hright, twins.restarted params⟩, hseen.trans hseen'.symm⟩

/-- A column of each. If the row has it there is a row, so both handles show the
    same; the views that are made have the same identity, as there were equally
    many before, and so not even the reply tells them apart. -/
theorem getColumn (h : Alike connected base s id t k) (e : Engine) (i : Int) :
    Alike connected base (s.perform e (.getColumn id (.index i))).2 id
        (t.perform e (.getColumn k (.index i))).2 k ∧
      Deed.seen e ⟨s, .getColumn id (.index i)⟩ = Deed.seen e ⟨t, .getColumn k (.index i)⟩ := by
  have halike := h
  rcases h with @⟨st, su, x, y, past, made, left, right, twins⟩
  have hleft := getColumn_at left.stands.found i
  have hright := getColumn_at right.stands.found i
  rw [← twins.offers] at hright
  rcases hoffers : x.offers i with f | ok
  · rw [hoffers] at hleft hright
    refine halike.looked e _ _ ⟨.error f, none⟩ ?_ ?_
    · rw [perform, hleft]
      rfl
    · rw [perform, hright]
      rfl
  · rw [hoffers] at hleft hright
    have hcursor := twins.cursor_of_row (Handle.row_of_offers hoffers)
    -- Both views have the same identity, since there were as many views before.
    have hlength : s.views.length = t.views.length := left.length.trans right.length.symm
    have hviewed : ∀ (u : Session) (g : HandleId),
        viewing (.ok u.views.length, (u.newView g i).2) =
          (⟨.ok (.column u.views.length i), some (.view u.views.length)⟩, (u.newView g i).2) := by
      intro u g
      have hview : (u.newView g i).2.views[u.views.length]? = some ⟨g, i, true⟩ :=
        List.getElem?_concat_length
      simp only [viewing, making, viewValue, hview, Option.map_some, Option.getD_some]
    have hstate : s.perform e (.getColumn id (.index i)) =
        (⟨.ok (.column s.views.length i), some (.view s.views.length)⟩,
          (s.newView st.handle i).2) := by
      rw [perform, hleft]
      exact hviewed s st.handle
    have hstate' : t.perform e (.getColumn k (.index i)) =
        (⟨.ok (.column t.views.length i), some (.view t.views.length)⟩,
          (t.newView su.handle i).2) := by
      rw [perform, hright]
      exact hviewed t su.handle
    have hseen := Deed.seen_quiet e ⟨s, .getColumn id (.index i)⟩
      (perform_quietly e _ s rfl rfl (fun _ => Command.noConfusion))
    have hseen' := Deed.seen_quiet e ⟨t, .getColumn k (.index i)⟩
      (perform_quietly e _ t rfl rfl (fun _ => Command.noConfusion))
    rw [hstate] at hseen ⊢
    rw [hstate'] at hseen' ⊢
    refine ⟨⟨left.viewedAt i, right.viewedAt i, ?_⟩, ?_⟩
    · exact .of_cursor twins.statement twins.row hcursor
    · rw [hseen, hseen', hlength]

theorem isColumnNull (h : Alike connected base s id t k) (e : Engine) (i : Int) :
    Alike connected base (s.perform e (.isColumnNull id (.index i))).2 id
        (t.perform e (.isColumnNull k (.index i))).2 k ∧
      Deed.seen e ⟨s, .isColumnNull id (.index i)⟩ =
        Deed.seen e ⟨t, .isColumnNull k (.index i)⟩ := by
  have halike := h
  rcases h with @⟨st, su, x, y, past, made, left, right, twins⟩
  have hleft := isColumnNull_at left.stands.found i
  have hright := isColumnNull_at right.stands.found i
  rw [← twins.nullAt] at hright
  refine halike.looked e _ _ (plainly .truth (x.nullAt i, s)).1 ?_ ?_
  · rw [perform, hleft]
    rcases x.nullAt i with f | b
    · rfl
    · rfl
  · rw [perform, hright]
    rcases x.nullAt i with f | b
    · rfl
    · rfl

/-- A record of each, from views that have the same identities and find the
    same. What the record does not hold is given back on both sides. -/
theorem built (shape : Shape) (ids : List ViewId)
    (columns : ids.filterMap s.column? = ids.filterMap t.column?)
    (given : ∀ vs : List ViewId, vs.length ≤ ids.length →
      Alike connected base (s.releaseViews vs) id (t.releaseViews vs) k) :
    Alike connected base (s.buildRecord shape ids).2 id (t.buildRecord shape ids).2 k ∧
      (s.buildRecord shape ids).1 = (t.buildRecord shape ids).1 := by
  unfold buildRecord
  rw [columns]
  rcases shape.build (ids.filterMap t.column?) with f | value
  · exact ⟨given ids (Nat.le_refl _), rfl⟩
  · exact ⟨given _ (List.length_filter_le _ _), rfl⟩

/-- A record of the first columns of each. If the width is accepted there is a
    row, so the new views find the same in both sessions, and the same is built
    of them. -/
theorem getColumns (h : Alike connected base s id t k) (e : Engine) (shape : Shape) (count : Int) :
    Alike connected base (s.perform e (.getColumns id shape count)).2 id
        (t.perform e (.getColumns k shape count)).2 k ∧
      Deed.seen e ⟨s, .getColumns id shape count⟩ = Deed.seen e ⟨t, .getColumns k shape count⟩ := by
  have halike := h
  rcases h with @⟨st, su, x, y, past, made, left, right, twins⟩
  have hwidth := twins.checkWidth count
  rcases hcount : checkWidth x count with f | n
  · rw [hcount] at hwidth
    refine halike.looked e _ _ ⟨.error f, none⟩ ?_ ?_
    · simp only [perform, Session.getColumns, left.stands.found, hcount, making]
    · simp only [perform, Session.getColumns, right.stands.found, ← hwidth, making]
  · rw [hcount] at hwidth
    have hcursor := twins.cursor_of_row (Handle.row_of_width hcount)
    have hlength : s.views.length = t.views.length := left.length.trans right.length.symm
    have hx := ((statement?_eq_some_iff s id st x).mp left.stands.found).2
    have hy := ((statement?_eq_some_iff t k su y).mp right.stands.found).2
    have hids : (t.newViews su.handle (List.range n)).1 =
        (s.newViews st.handle (List.range n)).1 := by
      rw [newViews_eq, newViews_eq, hlength]
    -- What the views find is a matter of the row and the cursor.
    have hcolumns : (s.newViews st.handle (List.range n)).1.filterMap
          (s.newViews st.handle (List.range n)).2.column? =
        (s.newViews st.handle (List.range n)).1.filterMap
          (t.newViews su.handle (List.range n)).2.column? := by
      rw [(newViews_columns st.handle (List.range n) s x hx).2.2, ← hids,
        (newViews_columns su.handle (List.range n) t y hy).2.2, hlength]
      refine List.map_congr_left ?_
      intro p _
      exact x.column_congr y twins.row hcursor p.2 p.1
    -- No more views are given up than were made.
    have hgiven : ∀ vs : List ViewId, vs.length ≤ (s.newViews st.handle (List.range n)).1.length →
        Alike connected base ((s.newViews st.handle (List.range n)).2.releaseViews vs) id
          ((t.newViews su.handle (List.range n)).2.releaseViews vs) k := by
      intro vs hvs
      rw [newViews_eq, List.length_range'] at hvs
      rcases (left.viewed (List.range n)).released vs
        (Nat.lt_of_le_of_lt hvs (Nat.lt_add_of_pos_left left.shares)) with ⟨_, hleft⟩
      rcases (right.viewed (List.range n)).released vs
        (Nat.lt_of_le_of_lt hvs (Nat.lt_add_of_pos_left right.shares)) with ⟨_, hright⟩
      exact ⟨hleft, hright, .of_cursor twins.statement twins.row hcursor⟩
    rcases built shape _ hcolumns hgiven with ⟨hbuilt, hanswer⟩
    have hleft : s.getColumns id shape count = (s.newViews st.handle (List.range n)).2.buildRecord
        shape (s.newViews st.handle (List.range n)).1 := by
      simp only [Session.getColumns, left.stands.found, hcount]
    have hright : t.getColumns k shape count = (t.newViews su.handle (List.range n)).2.buildRecord
        shape (s.newViews st.handle (List.range n)).1 := by
      rw [← hids]
      simp only [Session.getColumns, right.stands.found, ← hwidth]
    rw [Deed.seen_quiet e ⟨s, .getColumns id shape count⟩
        (perform_quietly e _ s rfl rfl (fun _ => Command.noConfusion)),
      Deed.seen_quiet e ⟨t, .getColumns k shape count⟩
        (perform_quietly e _ t rfl rfl (fun _ => Command.noConfusion))]
    simp only [perform, making_state, hleft, hright]
    exact ⟨hbuilt, by rw [making_reply _ _ hanswer]⟩

/-- One use of each shows the same of both, and leaves them indistinguishable.
    For most uses this is what was shown above; the two questions are answered
    from what twins have in common. -/
theorem use (h : Alike connected base s id t k) (e : Engine) (u : Use) :
    Alike connected base (s.perform e (u.on id)).2 id (t.perform e (u.on k)).2 k ∧
      Deed.seen e ⟨s, u.on id⟩ = Deed.seen e ⟨t, u.on k⟩ := by
  cases u with
  | step => exact h.stepped e (.step id) (.step k) rfl rfl (fun _ _ _ _ => rfl)
  -- The count of affected rows is read off the cursor, which is the same at the
  -- end.
  | exec =>
      refine h.stepped e (.exec id) (.exec k) rfl rfl ?_
      intro told x y hend
      rcases told with f | more
      · rfl
      · cases more with
        | true => rfl
        | false => simp only [Command.told, hend rfl]
  | reset params => exact h.reset e params
  | getColumn i => exact h.getColumn e i
  | isColumnNull i => exact h.isColumnNull e i
  | getColumns shape count => exact h.getColumns e shape count
  | hasRow =>
      have halike := h
      rcases h with @⟨st, su, x, y, past, made, left, right, twins⟩
      have hleft := askStatement_found left.stands.found fun _ h => .truth h.hasRow
      have hright := askStatement_found right.stands.found fun _ h => .truth h.hasRow
      have hsame : y.hasRow = x.hasRow := by
        unfold Handle.hasRow
        rw [twins.row]
      rw [hsame] at hright
      exact halike.looked e _ _ ⟨.ok (.truth x.hasRow), none⟩
        (congrArg (fun answer => ((⟨answer, none⟩ : Reply), s)) hleft)
        (congrArg (fun answer => ((⟨answer, none⟩ : Reply), t)) hright)
  | isDone =>
      have halike := h
      rcases h with @⟨st, su, x, y, past, made, left, right, twins⟩
      have hleft := askStatement_found left.stands.found fun st _ => .truth st.done
      have hright := askStatement_found right.stands.found fun st _ => .truth st.done
      rw [← twins.statement.done] at hright
      exact halike.looked e _ _ ⟨.ok (.truth st.done), none⟩
        (congrArg (fun answer => ((⟨answer, none⟩ : Reply), s)) hleft)
        (congrArg (fun answer => ((⟨answer, none⟩ : Reply), t)) hright)

/-- The views that were made of two such statements find the same. Once there is
    one, the cursors are the same, or there is no row. -/
theorem column? (h : Alike connected base s id t k) (v : ViewId) (hv : base.length ≤ v) :
    s.column? v = t.column? v := by
  rcases h with @⟨st, su, x, y, past, made, left, right, twins⟩
  rw [left.column?_made v hv, right.column?_made v hv]
  rcases hi : made[v - base.length]? with _ | i
  · rfl
  · -- Somebody has a view, so the cursors are the same.
    have hcursor : x.cursor = y.cursor := by
      rcases twins.cursor with hsame | ⟨-, -, hunseen⟩
      · exact hsame
      · rw [hunseen] at hi
        cases hi
    rw [Option.map_some, Option.map_some, x.column_congr y twins.row hcursor v i]

theorem past (h : Alike connected base s id t k) : s.past = t.past := by
  rcases h with ⟨left, right, -⟩
  exact left.stands.past.trans right.stands.past.symm

/-- Several uses of each, by induction: what is seen is seen one after the
    other, from sessions in which the two are again indistinguishable. -/
theorem uses (h : Alike connected base s id t k) (e : Engine) (us : List Use) :
    Alike connected base (s.run e (us.map (Use.on id))).2 id (t.run e (us.map (Use.on k))).2 k ∧
      (s.deeds e (us.map (Use.on id))).map (Deed.seen e) =
        (t.deeds e (us.map (Use.on k))).map (Deed.seen e) := by
  -- On the uses, where both sessions change with every one of them.
  induction us generalizing s t with
  | nil => exact ⟨h, rfl⟩
  | cons u rest ih =>
      rcases h.use e u with ⟨hnext, hseen⟩
      rcases ih hnext with ⟨hlast, hrest⟩
      refine ⟨hlast, ?_⟩
      simp only [List.map_cons, deeds]
      rw [hseen, hrest]

end Alike

/-! ### New statements -/

/-- A statement serves as long as its handle did not end and its connection is
    open. -/
theorem serves_self (e : Engine) (s : Session) (hs : Reachable e (fun _ => True) s)
    (id : StatementId) (st : Statement) (handle : Handle)
    (found : s.statement? id = some (st, handle)) (holding : st.holding = true)
    (connected : s.isConnected handle.cursor.connection = true)
    (live : handle.finalized = false) :
    s.Serves s.isConnected (s.views.map View.aim) id st handle s.past [] := by
  have hclosed := reachable_usable e _ s hs id st handle found live
  have hshares := reachable_funded e _ s hs st.handle handle
    ((statement?_eq_some_iff s id st handle).mp found).2 live
  refine ⟨stands_self s id st handle found, holding, ?_, live, hshares, ?_⟩
  · simp only [Cursor.refusal?, hclosed, connected, Bool.false_eq_true, if_false, if_true]
  · exact (List.append_nil _).symm

/-- A statement that has not started and has no row is as good as a new one. The
    new one is put beside it in a session of its own, where it serves as well,
    and the two are twins: their cursors may differ in the last result, which
    nobody can see yet. -/
theorem Serves.asNew {s : Session} {base : List (HandleId × Int)} {id : StatementId}
    {st : Statement} {handle : Handle} {past : List Request}
    (h : s.Serves s.isConnected base id st handle past [])
    (e : Engine) (unstarted : st.started = false) (undone : st.done = false)
    (row : handle.row = none)
    (current : s.database.connection = some handle.cursor.connection) :
    s.AsNew e id st.sql st.params := by
  have hclosed : handle.cursor.closed = false := by
    rcases hclosed : handle.cursor.closed with _ | _
    · rfl
    · have husable := h.usable
      rw [Cursor.refusal?, hclosed, if_pos rfl] at husable
      cases husable
  have hconnected := connected_of_usable h.refusal
  have hprepare : s.prepare st.sql st.params = (.ok s.statements.length,
      (s.newStatement handle.cursor.connection st.sql st.params).2) := by
    simp only [prepare, current]
    rfl
  have hnew : (s.newStatement handle.cursor.connection st.sql st.params).2.Serves s.isConnected base
      s.statements.length (.fresh s.handles.length st.sql st.params)
      (.fresh handle.cursor.connection st.sql) past [] := by
    refine ⟨⟨newStatement_found _ _ _ s, h.stands.past, rfl⟩, rfl, ?_, rfl, Nat.one_pos, h.views⟩
    simp only [Handle.fresh, Cursor.fresh, Cursor.refusal?, hconnected, Bool.false_eq_true,
      if_false, if_true]
  -- The results may differ (`Or.inr`), because neither statement has started
  -- nor has a row.
  have halike : Alike s.isConnected base s id
      (s.newStatement handle.cursor.connection st.sql st.params).2 s.statements.length := by
    refine ⟨h, hnew, ⟨⟨rfl, rfl, unstarted, undone⟩, row, ?_, Or.inr ⟨unstarted, row, rfl⟩⟩⟩
    simp only [Cursor.cleared, Handle.fresh, Cursor.fresh, hclosed]
  have hlength : base.length = s.views.length := h.length.symm
  refine ⟨_, hprepare, ?_⟩
  intro uses
  rcases halike.uses e uses with ⟨hafter, hseen⟩
  refine ⟨hseen, hafter.past, ?_⟩
  intro v hv
  exact hafter.column? v (by rw [hlength]; exact hv)

/-- A reset of an open statement whose connection is open renews it, for
    whatever parameters are set, and so does a step whose execution fails, for
    those that are in force. Neither holds if the handle has ended under the
    statement, nor the second one if there was a row before the execution and
    the failure leaves it. As long as nobody gives back shares that are not his
    own, or sets rows directly, there is nothing of the kind.

    To be as good as new is a statement about all uses that may follow, in any
    number and order: the same replies, the same demands on the engine, and the
    same columns behind the views. -/
theorem reset_asNew (e : Engine) (s : Session) (hs : Reachable e (fun _ => True) s)
    (id : StatementId) (st : Statement) (handle : Handle)
    (found : s.statement? id = some (st, handle)) (holding : st.holding = true)
    (connected : s.isConnected handle.cursor.connection = true) :
    (Reachable e Command.keepsCounts s →
        handle.finalized = false ∧ (st.started = false → handle.row = none)) ∧
      (handle.finalized = false →
        (∀ params, (s.perform e (.reset id params)).1.answer = .ok .null ∧
          (s.perform e (.reset id params)).2.AsNew e id st.sql (params.getD st.params)) ∧
        ∀ c x, c.stepped? = some id → st.started = false →
          e.execute s.past st.sql st.params = .error x →
          x.isDatabaseFailure = true ∨ handle.row = none →
            (s.perform e c).1.answer = .error (.ofEngine x) ∧
              (s.perform e c).2.AsNew e id st.sql st.params) := by
  have hh := ((statement?_eq_some_iff s id st handle).mp found).2
  have hlinked := (reachable_linked e s hs).made st.handle handle hh
  refine ⟨?_, ?_⟩
  · intro hkeeps
    refine ⟨open_unfinalized e s hkeeps id st handle found holding, ?_⟩
    intro unstarted
    exact reachable_idle e s (hkeeps.mono Command.setsNoRow_of_keepsCounts) id st handle found
      (Or.inl unstarted)
  · intro live
    have hserves := serves_self e s hs id st handle found holding connected live
    have current := hlinked.2 connected
    -- The new statement is made on the connection of the database, which is
    -- that of the old one.
    have kept : ∀ c : Command, c.connects = false →
        (s.perform e c).2.database.connection = s.database.connection := by
      intro c apart
      rcases perform_follows e c s (reachable_separate e _ s hs) apart with ⟨ks, hf, -⟩
      rw [hf.database]
    refine ⟨?_, ?_⟩
    · intro params
      have hanswer := (perform_reset e s id st handle found holding params).2
      have hafter := (hserves.restarted e params).1
      have hsame := kept (.reset id params) rfl
      rw [← hafter.stands.connected] at hafter
      exact ⟨hanswer, hafter.asNew e rfl rfl rfl (hsame.trans current)⟩
    · intro c x hc unstarted hfailed hrow
      have undone := reachable_undone e _ s hs id st handle found unstarted
      have hready : s.readied e st handle = .error x := by
        simp only [readied, unstarted, Bool.false_eq_true, if_false, hfailed, Except.map]
      rcases hserves.stepped e c hc with ⟨told, asked, st', handle', hturned, hafter, hseen⟩
      simp only [hready, Statement.turned, undone, Bool.false_eq_true, if_false,
        Prod.mk.injEq] at hturned
      rcases hturned with ⟨rfl, rfl, rfl, rfl⟩
      have hsame := kept c (by
        cases c with
        | step id' => rfl
        | exec id' => rfl
        | _ => cases hc)
      rw [← hafter.stands.connected] at hafter
      refine ⟨?_, hafter.asNew e unstarted undone ?_ ?_⟩
      · have hreply := congrArg (·.1.answer) hseen
        cases c with
        | step id' => exact hreply
        | exec id' => exact hreply
        | _ => cases hc
      · -- The failure takes a row away, or there was none.
        unfold Handle.failed
        by_cases hx : x.isDatabaseFailure = true
        · rw [if_pos hx]
        · rw [if_neg hx]
          exact hrow.resolve_left hx
      · rw [Handle.failed_cursor]
        exact hsame.trans current

end Session

/-- An engine that warns when anything is executed. -/
def Engine.alarmed : Engine where
  connect _ _ := none
  pragma _ _ := none
  script _ _ := (0, none)
  execute _ _ _ := .error ⟨.warning, [], none, none⟩

namespace Session

/-- A program that makes a statement and gives back its share without closing
    it. -/
def draining : List Command := [.openDatabase, .prepare (.text []) .empty, .release 0]

/-- A program that makes a statement and sets its row without a step. -/
def planting : List Command :=
  [.openDatabase, .prepare (.text []) .empty, .setRow 0 (some [.integer 7])]

/-- After a reset the drained statement can still not be stepped, and the failed
    execution leaves the planted row. Both statements are open, and so are their
    connections. -/
theorem reset_spoiled :
    (∃ st handle, (unopened.run .oneRow draining).2.statement? 0 = some (st, handle) ∧
      st.holding = true ∧
      (unopened.run .oneRow draining).2.isConnected handle.cursor.connection = true ∧
      ¬ ((unopened.run .oneRow draining).2.perform .oneRow (.reset 0 none)).2.AsNew .oneRow 0
        st.sql st.params) ∧
      ∃ st handle, (unopened.run .alarmed planting).2.statement? 0 = some (st, handle) ∧
        st.holding = true ∧
        (unopened.run .alarmed planting).2.isConnected handle.cursor.connection = true ∧
        ((unopened.run .alarmed planting).2.perform .alarmed (.step 0)).1.answer =
          .error (.engine ⟨.warning, [], none, none⟩) ∧
        ¬ ((unopened.run .alarmed planting).2.perform .alarmed (.step 0)).2.AsNew .alarmed 0
          st.sql st.params := by
  refine ⟨⟨_, _, rfl, rfl, rfl, ?_⟩, _, _, rfl, rfl, rfl, rfl, ?_⟩
  · rintro ⟨t, ht, hsame⟩
    -- A step is refused by the one and answered by the other.
    obtain rfl := congrArg Prod.snd ht
    have hanswers : ([.error (.access (.engine ⟨Text.ofString "Cannot operate on a closed cursor.",
        none, none⟩))] : List (Except Fault Value)) = [.ok (.truth true)] :=
      congrArg (List.map fun seen : Reply × List Demand => seen.1.answer) (hsame [.step]).seen
    cases hanswers
  · rintro ⟨t, ht, hsame⟩
    obtain rfl := congrArg Prod.snd ht
    have hanswers : ([.ok (.truth true)] : List (Except Fault Value)) = [.ok (.truth false)] :=
      congrArg (List.map fun seen : Reply × List Demand => seen.1.answer) (hsame [.hasRow]).seen
    cases hanswers

/-- A statement that has a row and a view of it is renewed by a reset, and one
    that an engine has warned of is as good as before. -/
theorem reset_asNew_again :
    ((unopened.run .oneRow (preparing ++ steppingOver)).2.perform .oneRow
        (.reset 0 (some .empty))).2.AsNew .oneRow 0 (.text []) .empty ∧
      ((unopened.run .alarmed preparing).2.perform .alarmed (.step 0)).2.AsNew .alarmed 0 (.text [])
        .empty := by
  have hs := reachable_run .oneRow (fun _ => True) (preparing ++ steppingOver) unopened
    (.start [] .standard ⟨.root, []⟩) (fun _ _ => trivial)
  have hs' := reachable_run .alarmed (fun _ => True) preparing unopened
    (.start [] .standard ⟨.root, []⟩) (fun _ _ => trivial)
  exact ⟨(((reset_asNew .oneRow _ hs 0 _ _ rfl rfl rfl).2 rfl).1 (some .empty)).2,
    (((reset_asNew .alarmed _ hs' 0 _ _ rfl rfl rfl).2 rfl).2 (.step 0) _ rfl rfl rfl
      (Or.inr rfl)).2⟩

end Session

end RowScope
