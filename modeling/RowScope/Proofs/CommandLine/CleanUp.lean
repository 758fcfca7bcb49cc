import RowScope.CommandLine.Run
import RowScope.Proofs.Session.Effects
import RowScope.Proofs.Session.Lifecycle
import RowScope.Proofs.Session.Standing

/-!
# Cleaning Up

Once its database is open, a run leaves nothing behind, whatever fails from
there on. Two things have to be known for that, and neither of them is about
failures. One is that of all the views that are made while a result is printed,
only one is held at a time, so that there is only one to give up in the end. The
other is that cursors take care of themselves. An account is balanced wherever
commands lead, and a balanced account without holders has ended, with one call.

So the order in which things are given up does not matter. If all goes well the
view goes first and the connection after it, and the other way round after a
failure, since the view is part of what has failed. The cursor is closed when
its view goes, be its connection open or not.

The connection is closed once because it is used by nobody else: printing calls
nothing but work on an open connection, and leaves the database as it is.

## Main definitions

* `Session.HoldsOnly`: No view is held but one.
* `Session.Works`: One session comes out of another by work on an open
  connection.
* `Session.Carries`: A part of printing.
* `Session.Clear`: Nothing is held.
* `Session.Leaves`: What printing a result leaves behind.
* `Session.CleansUp`: Every connection and every cursor was closed once.
* `Session.Sheds`, `Session.GivesUp`: Things are given up, and in the end
  everything is.
* `Arguments.begun`, `Arguments.finished`: The session of a run, at its
  beginning and at its end.

## Theorems

* `printCell_carries`, `printRow_carries`, `printFrom_carries`: Printing holds
  one view at most.
* `printRows_leaves`: All that it leaves behind is one closed statement and one
  view.
* `Balanced.settled`, `Clear.closings`: Where nothing is held, every cursor was
  closed once.
* `givesUp_after_success`, `givesUp_after_failure`: The two orders in which
  things are given up.
* `finished_unconnected`, `finished_connected`: A run cleans up.
-/

namespace RowScope

/-- A call closes a connection. -/
def Call.disconnects (c : ConnectionId) : Call → Bool
  | .disconnect c' => c' == c
  | _ => false

/-- Calls among which no connection is closed. -/
theorem Call.disconnects_none (ks : List Call) (hks : ∀ k ∈ ks, ∀ c, k ≠ .disconnect c)
    (c : ConnectionId) : ks.countP (Call.disconnects c) = 0 := by
  rw [List.countP_eq_zero]
  intro k hk hdisconnects
  cases k with
  | disconnect c' => exact hks _ hk c' rfl
  | _ => cases hdisconnects

namespace Touch

/-- The footprint of printing: nothing is made but views, and nothing is given
    back but them. -/
def ofPrinting : Touch → Prop
  | prepare => False
  | close _ => False
  | handle => False
  | bareView _ => False
  | share _ => False
  | giveBack _ => False
  | setRow _ => False
  | _ => True

theorem isMediated_of_ofPrinting (a : Touch) (ha : a.ofPrinting) : a.isMediated := by
  cases a with
  | handle => exact False.elim ha
  | bareView h => exact False.elim ha
  | share h => exact False.elim ha
  | giveBack h => exact False.elim ha
  | setRow h => exact False.elim ha
  | _ => trivial

theorem isMediated_of_ofDatabase (a : Touch) (ha : a.ofDatabase) : a.isMediated := by
  cases a with
  | aside => trivial
  | call c => trivial
  | _ => exact False.elim ha

end Touch

/-- What a list still holds at some place after a change that takes a property
    away was there before the change, and the change was made elsewhere. -/
theorem of_getElem?_modify {α : Type} (l : List α) (f : α → α) (p : α → Bool)
    (gone : ∀ x, p (f x) = false) (i j : Nat) (x : α) (hx : (l.modify i f)[j]? = some x)
    (hp : p x = true) : l[j]? = some x ∧ i ≠ j := by
  rcases hy : l[j]? with _ | y
  · rw [List.getElem?_modify, hy] at hx
    cases hx
  · rw [getElem?_modify_of_some l f i j y hy] at hx
    by_cases hsame : i = j
    · rw [if_pos hsame, Option.some.injEq] at hx
      rw [← hx, gone] at hp
      cases hp
    · rw [if_neg hsame] at hx
      exact ⟨hx, hsame⟩

namespace Session

/-! ### The view that is held -/

/-- No view is held but this one, if any is. -/
def HoldsOnly (s : Session) (held : Option ViewId) : Prop :=
  ∀ v view, s.views[v]? = some view → view.holding = true → held = some v

theorem HoldsOnly.of_same {s t : Session} {held : Option ViewId} (hs : s.HoldsOnly held)
    (views : t.views = s.views) : t.HoldsOnly held := by
  intro v view hview
  rw [views] at hview
  exact hs v view hview

/-- What is held after the view in use was given up is another one, and was held
    before. -/
theorem releaseHeld_held (s : Session) (p : Printed) (v : ViewId) (view : View)
    (hview : (s.releaseHeld p).views[v]? = some view) (holding : view.holding = true) :
    s.views[v]? = some view ∧ p.held ≠ some v := by
  unfold releaseHeld at hview
  rcases hheld : p.held with _ | w
  · rw [hheld] at hview
    exact ⟨hview, (Option.some_ne_none v).symm⟩
  · rw [hheld] at hview
    simp only [releaseView_views] at hview
    rcases of_getElem?_modify s.views (fun view => { view with holding := false }) View.holding
      (fun _ => rfl) w v view hview holding with ⟨hbefore, hother⟩
    exact ⟨hbefore, fun hsame => hother (Option.some.inj hsame)⟩

/-- When the next view was made, the last one is given up, so again one view is
    held and no other. -/
theorem HoldsOnly.moveOn {s : Session} {p : Printed} (hs : s.HoldsOnly p.held) (h : HandleId)
    (i : Int) : ((s.newView h i).2.releaseHeld p).HoldsOnly (some s.views.length) := by
  intro v view hview holding
  rcases releaseHeld_held _ p v view hview holding with ⟨hbefore, hother⟩
  rcases of_getElem?_concat s.views _ v view hbefore with ⟨rfl, -⟩ | hold
  · rfl
  · exact absurd (hs v view hold holding) hother

theorem releaseHeld_leads (p : Printed) (s : Session) :
    s.Leads Touch.ofPrinting (s.releaseHeld p) := by
  unfold releaseHeld
  split
  · exact .refl _ s
  · rename_i v _
    exact .one (.release v) trivial (.release v)

theorem releaseHeld_trails (e : Engine) (p : Printed) (s : Session) :
    s.Trails e (s.releaseHeld p) := by
  unfold releaseHeld
  split
  · exact .refl e s
  · exact releaseView_trails e _ s

/-! ### Printing -/

/-- One session comes out of another by work on an open connection, if by any
    call. -/
def Works (e : Engine) (s t : Session) : Prop :=
  ∃ ks, s.Follows e t ks ∧ ∀ k ∈ ks, k.isWork = true

theorem Works.refl (e : Engine) (s : Session) : s.Works e s :=
  ⟨[], .refl e s, fun _ hk => absurd hk List.not_mem_nil⟩

theorem Works.trans {e : Engine} {s t u : Session} (h1 : s.Works e t) (h2 : t.Works e u) :
    s.Works e u := by
  rcases h1 with ⟨first, hfirst, hwork1⟩
  rcases h2 with ⟨last, hlast, hwork2⟩
  exact ⟨first ++ last, hfirst.trans hlast,
    fun k hk => (List.mem_append.mp hk).elim (hwork1 k) (hwork2 k)⟩

theorem Yields.works {α : Type} {e : Engine} {s : Session} {o : Outcome α} (h : s.Yields e o) :
    s.Works e o.2 := by
  rcases h with ⟨ks, hf, hwork, -⟩
  exact ⟨ks, hf, hwork⟩

/-- To close a cursor is work. -/
theorem Trails.works {e : Engine} {s t : Session} (h : s.Trails e t) : s.Works e t := by
  rcases h with ⟨ks, hf, hends⟩
  refine ⟨ks, hf, fun k hk => ?_⟩
  rcases hends k hk with ⟨h, rfl⟩
  rfl

/-- A part of printing, from the view that is held before to the one that is
    held afterwards. -/
structure Carries (e : Engine) (s : Session) (held : Option ViewId) (t : Session)
    (held' : Option ViewId) : Prop where
  leads : s.Leads Touch.ofPrinting t
  works : s.Works e t
  holds : s.HoldsOnly held → t.HoldsOnly held'

theorem Carries.refl (e : Engine) (s : Session) (held : Option ViewId) :
    s.Carries e held s held :=
  ⟨.refl _ s, .refl e s, id⟩

/-- Parts of printing follow each other, the second one beginning with the view
    that the first one ended with. -/
theorem Carries.trans {e : Engine} {s t u : Session} {held held' held'' : Option ViewId}
    (h1 : s.Carries e held t held') (h2 : t.Carries e held' u held'') :
    s.Carries e held u held'' :=
  ⟨h1.leads.trans h2.leads, h1.works.trans h2.works, fun hs => h2.holds (h1.holds hs)⟩

theorem ofPrinting_of_ofReading (n : Nat) (id : StatementId) (key : Key) (a : Touch)
    (ha : Touch.ofReading n id key a) : a.ofPrinting := by
  cases a with
  | places id' => trivial
  | view h => trivial
  | release v => trivial
  | _ => exact False.elim ha

theorem ofPrinting_of_ofStep (s : Session) (id : StatementId) (a : Touch)
    (ha : Touch.ofStep s id a) : a.ofPrinting := by
  cases a with
  | aside => trivial
  | call c => trivial
  | cursor h => trivial
  | row h => trivial
  | flags id' => trivial
  | _ => exact False.elim ha

/-- A step makes no view and gives none up, so whatever is held stays held. -/
theorem step_carries (e : Engine) (id : StatementId) (s : Session) (separate : s.Separate)
    (held : Option ViewId) : s.Carries e held (s.step e id).2 held :=
  ⟨(step_leads e id s).mono (ofPrinting_of_ofStep s id), (step_yields e id s separate).works,
    fun hs => hs.of_same (step_views e id s)⟩

/-- A column that cannot be taken leaves no view. -/
theorem getColumn_refused (id : StatementId) (key : Key) (s t : Session) (f : Fault)
    (h : s.getColumn id key = (.error f, t)) : t.views = s.views := by
  unfold getColumn at h
  split at h
  · rw [(Prod.mk.inj h).2]
  · rename_i st handle _
    have hbeside := (locate_beside id st handle key s).2
    split at h
    · rename_i hl
      rw [hl, (Prod.mk.inj h).2] at hbeside
      exact hbeside
    · cases h

/-- Printing a cell holds the view of the cell afterwards, unless the column was
    refused; then the view before it is still held. If the cell cannot be read
    or written, its view is held nevertheless, and is part of the failure. -/
theorem printCell_carries (e : Engine) (style : RowStyle) (id : StatementId) (index : Nat)
    (p : Printed) (s : Session) :
    s.Carries e p.held (s.printCell style id index p).2.2
      (s.printCell style id index p).2.1.held := by
  -- Whether there is a tab makes no difference to the view that is held.
  have htab : (if index = 0 then p else p.write RowStyle.tab).held = p.held := by
    split
    · rfl
    · rfl
  unfold printCell
  generalize (if index = 0 then p else p.write RowStyle.tab) = q at htab ⊢
  rw [← htab]
  have hleads := (getColumn_leads s.views.length id (.index index) s).mono
    (ofPrinting_of_ofReading _ id _)
  have hworks := (getColumn_yields e id (.index index) s).works
  rcases hget : s.getColumn id (.index index) with ⟨f | v, t⟩
  · rw [hget] at hleads hworks
    exact ⟨hleads, hworks, fun hs => hs.of_same (getColumn_refused id _ s t f hget)⟩
  · rw [hget] at hleads hworks
    have hmoved : s.Carries e q.held (t.releaseHeld q) (some v) := by
      rcases getColumn_ok id _ s t v hget with ⟨st, handle, u, i, -, hlocate, rfl, rfl⟩
      have hviews := (locate_beside id st handle (.index index) s).2
      rw [hlocate] at hviews
      refine ⟨hleads.trans (releaseHeld_leads q _),
        hworks.trans (releaseHeld_trails e q _).works, fun hs => ?_⟩
      rw [← show u.views.length = s.views.length from congrArg List.length hviews]
      exact (hs.of_same hviews).moveOn st.handle i
    -- However the cell is read, the new view is the one that is held.
    simp only []
    rcases (t.releaseHeld q).column? v with _ | c
    · exact hmoved
    · simp only []
      rcases style.cell c with f | text
      · exact hmoved
      · exact hmoved

/-- Printing cells goes from view to view, and ends with the last one that was
    made. -/
theorem printCells_carries (e : Engine) (style : RowStyle) (id : StatementId) (is : List Nat)
    (p : Printed) (s : Session) :
    s.Carries e p.held (s.printCells style id is p).2.2 (s.printCells style id is p).2.1.held := by
  induction is generalizing s p with
  | nil => exact .refl e s p.held
  | cons i rest ih =>
      have hcell := printCell_carries e style id i p s
      rw [printCells]
      rcases hprinted : s.printCell style id i p with ⟨f | _, q, t⟩
      · rw [hprinted] at hcell
        exact hcell
      · rw [hprinted] at hcell
        exact hcell.trans (ih q t)

/-- Printing a row holds one view at most, because a row is cells with text
    around them. -/
theorem printRow_carries (e : Engine) (style : RowStyle) (id : StatementId) (p : Printed)
    (s : Session) :
    s.Carries e p.held (s.printRow style id p).2.2 (s.printRow style id p).2.1.held := by
  unfold printRow
  split
  · exact .refl e s p.held
  · rename_i handle _
    have hcells := printCells_carries e style id (List.range handle.columnCount)
      (p.write (style.headerLine handle.columnNames p.rows)) s
    simp only []
    rcases hprinted : s.printCells style id (List.range handle.columnCount)
      (p.write (style.headerLine handle.columnNames p.rows)) with ⟨f | _, q, t⟩
    · rw [hprinted] at hcells
      exact hcells
    · rw [hprinted] at hcells
      exact hcells

/-- The loop holds one view at most, by induction on its bound: a row carries,
    and so does the step after it. The handles stay separate on the way, which a
    step asks for. -/
theorem printFrom_carries (e : Engine) (style : RowStyle) (id : StatementId) (count : Nat)
    (o : Outcome Bool) (p : Printed) (separate : o.2.Separate) :
    o.2.Carries e p.held (printFrom e style id count o p).2.2
      (printFrom e style id count o p).2.1.held := by
  induction count generalizing o p with
  | zero =>
      rcases o with ⟨f | _ | _, s⟩
      · exact .refl e s p.held
      · exact .refl e s p.held
      · exact .refl e s p.held
  | succ count ih =>
      rcases o with ⟨f | _ | _, s⟩
      · exact .refl e s p.held
      · exact .refl e s p.held
      · have hrow := printRow_carries e style id p s
        rw [printFrom]
        rcases hprinted : s.printRow style id p with ⟨f | _, q, t⟩
        · rw [hprinted] at hrow
          exact hrow
        · rw [hprinted] at hrow
          -- The next step is taken where the row has led.
          have hseparate := separate.leads hrow.leads
          have hstep := step_carries e id t hseparate q.held
          exact hrow.trans (hstep.trans (ih (t.step e id) q (hseparate.leads hstep.leads)))

theorem printAll_carries (e : Engine) (style : RowStyle) (id : StatementId) (s : Session)
    (separate : s.Separate) :
    s.Carries e none (s.printAll e style id).2.2 (s.printAll e style id).2.1.held := by
  have hstep := step_carries e id s separate none
  exact hstep.trans (printFrom_carries e style id _ (s.step e id) .empty
    (separate.leads hstep.leads))

/-- Where nothing is made but views, there are as many statements and handles as
    before. -/
theorem Leads.made_kept {s t : Session} (hl : s.Leads Touch.ofPrinting t) :
    t.statements.length = s.statements.length ∧ t.handles.length = s.handles.length := by
  refine hl.preserves (fun u => u.statements.length = s.statements.length ∧
    u.handles.length = s.handles.length) ?_ ⟨rfl, rfl⟩
  rintro a u w ha m ⟨hstatements, hhandles⟩
  rcases m.owners a u w with ⟨hmap, hlength | ⟨rfl, -⟩⟩ | ⟨rfl, -⟩
  · have hsame := congrArg List.length hmap
    rw [List.length_map, List.length_map] at hsame
    exact ⟨hsame.trans hstatements, hlength.trans hhandles⟩
  · exact False.elim ha
  · exact False.elim ha

/-! ### Nothing is held -/

/-- Nothing is held: every statement and every view has given back its share. -/
structure Clear (s : Session) : Prop where
  statements : ∀ st ∈ s.statements, st.holding = false
  views : ∀ view ∈ s.views, view.holding = false

theorem Clear.holdsOnly {s : Session} (hs : s.Clear) : s.HoldsOnly none := by
  intro v view hview holding
  rw [hs.views view (List.mem_of_getElem? hview)] at holding
  cases holding

/-- A session whose statements are closed is clear when the view in use was
    given up, that view being the only thing that was still held. -/
theorem HoldsOnly.clear {s : Session} {p : Printed} (hs : s.HoldsOnly p.held)
    (idle : ∀ st ∈ s.statements, st.holding = false) : (s.releaseHeld p).Clear := by
  constructor
  · intro st hst
    have hsame : (s.releaseHeld p).statements = s.statements := by
      unfold releaseHeld
      split
      · rfl
      · exact releaseView_statements _ s
    rw [hsame] at hst
    exact idle st hst
  · intro view hmem
    rcases List.mem_iff_getElem?.mp hmem with ⟨v, hview⟩
    rcases holding : view.holding with _ | _
    · rfl
    · rcases releaseHeld_held s p v view hview holding with ⟨hbefore, hother⟩
      exact absurd (hs v view hbefore holding) hother

/-- A statement that is held after some statement was closed is another one. -/
theorem closeStatement_held (s : Session) (id id' : StatementId) (st : Statement)
    (hst : (s.closeStatement id).statements[id']? = some st) (holding : st.holding = true) :
    s.statements[id']? = some st ∧ id ≠ id' := by
  rw [closeStatement_statements] at hst
  exact of_getElem?_modify s.statements (fun st => { st with holding := false })
    Statement.holding (fun _ => rfl) id id' st hst holding

/-- What printing leaves of a new statement when that is closed: nothing that is
    held. Printing makes no statements, so the others are those of a session
    that was clear. -/
theorem Carries.idle {e : Engine} {s w : Session} {c : ConnectionId} {sql : Sql} {params : Params}
    {held held' : Option ViewId} (clear : s.Clear)
    (hw : (s.newStatement c sql params).2.Carries e held w held') :
    ∀ st ∈ (w.closeStatement s.statements.length).statements, st.holding = false := by
  intro st hmem
  rcases List.mem_iff_getElem?.mp hmem with ⟨id, hst⟩
  rcases holding : st.holding with _ | _
  · rfl
  · -- Such a statement would be one of those before, which are closed.
    rcases closeStatement_held w _ id st hst holding with ⟨hbefore, hother⟩
    have hlt := (List.getElem?_eq_some_iff.mp hbefore).1
    rw [hw.leads.made_kept.1] at hlt
    have hfound := List.getElem?_eq_getElem hlt
    rcases hw.leads.statement_kept id _ hfound with ⟨st', hst', -, hkept, -⟩
    obtain rfl := Option.some.inj (hst'.symm.trans hbefore)
    rw [hkept fun hc => hc] at holding
    rcases of_getElem?_concat s.statements _ id _ hfound with ⟨heq, -⟩ | hold
    · exact absurd heq.symm hother
    · rw [clear.statements _ (List.mem_of_getElem? hold)] at holding
      cases holding

/-- What printing a result leaves behind: one more handle, whose statement is
    closed, and the view in use. -/
structure Leaves (e : Engine) (s t : Session) (held : Option ViewId) : Prop where
  leads : s.Leads Touch.isMediated t
  works : s.Works e t
  holds : t.HoldsOnly held
  idle : ∀ st ∈ t.statements, st.holding = false
  handles : t.handles.length = s.handles.length + 1

/-- To print a result is to print all of a new statement, and to close that. -/
theorem printRows_of_all {e : Engine} {style : RowStyle} {sql : Sql} {s w : Session}
    {c : ConnectionId} (opened : s.database.connection = some c) {o : Except Fault Unit}
    {p : Printed} (printed : (s.newStatement c sql .empty).2.printAll e style s.statements.length =
      (o, p, w)) :
    s.printRows e style sql = (o, p, w.closeStatement s.statements.length) := by
  simp only [printRows, prepare, opened]
  exact congrArg (fun r : Printing => (r.1, r.2.1, r.2.2.closeStatement s.statements.length))
    printed

theorem closeStatement_handles_length (id : StatementId) (s : Session) :
    (s.closeStatement id).handles.length = s.handles.length := by
  rcases closeStatement_cases id s with ⟨heq, -⟩ | ⟨st, -, -, heq⟩
  · rw [heq]
  · rw [heq, release_handles_length]
    rfl

/-- Printing a result leaves behind one closed statement and the view in use,
    whether it ended well or not. The view is not given up here, since the
    failure may still have it. -/
theorem printRows_leaves (e : Engine) (style : RowStyle) (sql : Sql) (s : Session)
    (separate : s.Separate) (clear : s.Clear) (c : ConnectionId)
    (opened : s.database.connection = some c) {o : Except Fault Unit} {p : Printed} {t : Session}
    (printed : s.printRows e style sql = (o, p, t)) : s.Leaves e t p.held := by
  have hmade : s.Leads Touch.isMediated (s.newStatement c sql .empty).2 :=
    .one .prepare trivial (.prepare c sql .empty)
  have hnew : s.Works e (s.newStatement c sql .empty).2 :=
    (Trails.of_follows (newStatement_follows e c sql .empty s opened)).works
  have hcarries := printAll_carries e style s.statements.length _ (separate.leads hmade)
  rcases hall : (s.newStatement c sql .empty).2.printAll e style s.statements.length with ⟨o', q, w⟩
  rw [hall] at hcarries
  rw [printRows_of_all opened hall] at printed
  obtain ⟨rfl, rfl⟩ := Prod.mk.inj (Prod.mk.inj printed).2
  -- The statement is closed after the printing, whatever came of it.
  have hclose : w.Leads Touch.isMediated (w.closeStatement s.statements.length) :=
    .one (.close _) trivial (.close _)
  refine ⟨hmade.trans ((hcarries.leads.mono Touch.isMediated_of_ofPrinting).trans hclose),
    hnew.trans (hcarries.works.trans (closeStatement_trails e _ w).works), ?_,
    hcarries.idle clear, ?_⟩
  · exact (hcarries.holds (clear.holdsOnly.of_same rfl)).of_same (closeStatement_views _ w)
  · rw [closeStatement_handles_length, hcarries.leads.made_kept.2]
    exact List.length_append

end Session

/-- A balanced account without holders has ended, and its cursor was closed
    once. Its shares are those of its holders, so there are none, and an account
    ends when its shares do. -/
theorem Account.Balanced.settled {x : Account} (hx : x.Balanced) (statements : x.statements = 0)
    (views : x.views = 0) : x.closings = if x.made then 1 else 0 := by
  have hshares : x.shares = 0 := by
    rw [hx.held, statements, views]
  rw [hx.closed]
  rcases hmade : x.made with _ | _
  · rw [(hx.nothing hmade).2.1]
  · rw [(hx.ended hmade).mpr hshares]

namespace Session

/-- Where nothing is held, every cursor was closed, and once. Nothing is said of
    the order, nor of what failed: an account is balanced wherever the session
    has come to. -/
theorem Clear.closings {s : Session} (hs : s.Clear) (h : HandleId)
    (balanced : (s.account h).Balanced) :
    s.calls.countP (Call.closes h) = if h < s.handles.length then 1 else 0 := by
  have hstatements : s.statements.countP (Statement.holds h) = 0 := by
    rw [List.countP_eq_zero]
    intro st hst
    rw [Statement.holds, hs.statements st hst]
    exact Bool.false_ne_true
  have hviews : s.views.countP (View.holds h) = 0 := by
    rw [List.countP_eq_zero]
    intro view hview
    rw [View.holds, hs.views view hview]
    exact Bool.false_ne_true
  -- Since the account is balanced nobody can have left without the cursor being
  -- closed.
  have hsettled : s.calls.countP (Call.closes h) = if s.handles[h]?.isSome then 1 else 0 :=
    balanced.settled hstatements hviews
  rw [hsettled]
  by_cases hlt : h < s.handles.length
  · rw [List.getElem?_eq_getElem hlt, if_pos hlt]
    rfl
  · rw [List.getElem?_eq_none (Nat.le_of_not_lt hlt), if_neg hlt]
    rfl

/-! ### Giving things up -/

/-- Every connection that was made was closed, and so was every cursor, each of
    them once. -/
structure CleansUp (s : Session) : Prop where
  disconnected : ∀ c,
    s.calls.countP (Call.disconnects c) = if c < s.connections.length then 1 else 0
  closed : ∀ h, s.calls.countP (Call.closes h) = if h < s.handles.length then 1 else 0

/-- Things are given up, by these calls, and nothing is made. -/
structure Sheds (s t : Session) (ks : List Call) : Prop where
  calls : t.calls = s.calls ++ ks
  connections : t.connections.length = s.connections.length
  handles : t.handles.length = s.handles.length
  leads : s.Leads Touch.isMediated t

theorem Sheds.trans {s t u : Session} {ks ls : List Call} (h1 : s.Sheds t ks) (h2 : t.Sheds u ls) :
    s.Sheds u (ks ++ ls) := by
  refine ⟨?_, h2.connections.trans h1.connections, h2.handles.trans h1.handles,
    h1.leads.trans h2.leads⟩
  rw [h2.calls, h1.calls, List.append_assoc]

theorem logged_sheds (s : Session) (notes : List Diagnostic) :
    s.Sheds { s with log := s.log ++ notes } [] :=
  ⟨(List.append_nil _).symm, rfl, rfl, .one .aside trivial (.aside rfl rfl rfl rfl)⟩

/-- To close an open database is one call, and takes nothing with it but the
    connection. -/
theorem closeDatabase_sheds (s : Session) (c : ConnectionId)
    (opened : s.database.connection = some c) : s.Sheds s.closeDatabase [.disconnect c] := by
  have hleads := (closeDatabase_leads s).mono Touch.isMediated_of_ofDatabase
  rw [closeDatabase_opened s c opened] at hleads ⊢
  exact ⟨rfl, List.length_modify .., rfl, hleads⟩

/-- To give up the view in use disconnects nothing. It may close a cursor, which
    is a call on the cursor alone. -/
theorem releaseHeld_sheds (p : Printed) (s : Session) :
    ∃ ks, s.Sheds (s.releaseHeld p) ks ∧ (∀ c, ks.countP (Call.disconnects c) = 0) ∧
      (s.releaseHeld p).database = s.database := by
  have hleads := releaseHeld_leads p s
  -- Cursors are closed in the same way whatever the engine is.
  rcases releaseHeld_trails .oneRow p s with ⟨ks, hf, hends⟩
  have hwork : ∀ k ∈ ks, k.isWork = true := by
    intro k hk
    rcases hends k hk with ⟨h, rfl⟩
    rfl
  refine ⟨ks, ⟨hf.calls, (hf.connections_kept hwork).1, hleads.made_kept.2,
    hleads.mono Touch.isMediated_of_ofPrinting⟩, Call.disconnects_none ks fun k hk c => ?_,
    hf.database⟩
  rcases hends k hk with ⟨h, rfl⟩
  exact Call.noConfusion

/-- How a failure is dealt with at the end of a run only shows in the log. -/
theorem failedRun_logs (f : Fault) (s : Session) :
    ∃ notes, (s.failedRun f).2 = { s with log := s.log ++ notes } := by
  unfold failedRun
  split
  · exact ⟨_, rfl⟩
  · refine ⟨[], ?_⟩
    rw [List.append_nil]

/-- Everything is given up, with the connection among it. -/
def GivesUp (s t : Session) (c : ConnectionId) : Prop :=
  ∃ ks, s.Sheds t ks ∧ (∀ c', ks.countP (Call.disconnects c') = if c' = c then 1 else 0) ∧ t.Clear

theorem disconnect_once (c c' : ConnectionId) :
    [Call.disconnect c].countP (Call.disconnects c') = if c' = c then 1 else 0 := by
  by_cases hsame : c' = c
  · rw [if_pos hsame, hsame]
    simp only [Call.disconnects, List.countP_cons, List.countP_nil, BEq.rfl, if_true]
  · rw [if_neg hsame, List.countP_eq_zero]
    intro k hk
    rw [List.mem_singleton.mp hk, Call.disconnects, beq_iff_eq]
    exact Ne.symm hsame

section

variable {s : Session} {p : Printed} {c : ConnectionId}

/-- If all went well the view is given up first, and the database closed behind
    it. -/
theorem givesUp_after_success (opened : s.database.connection = some c) (hs : s.HoldsOnly p.held)
    (idle : ∀ st ∈ s.statements, st.holding = false) (d : Diagnostic) :
    s.GivesUp ((s.releaseHeld p).closeDatabase.noted d) c := by
  rcases releaseHeld_sheds p s with ⟨ks, hsheds, hnone, hdatabase⟩
  have hopened : (s.releaseHeld p).database.connection = some c := by
    rw [hdatabase]
    exact opened
  have hclear := hs.clear idle
  refine ⟨_, hsheds.trans ((closeDatabase_sheds _ c hopened).trans (logged_sheds _ [d])),
    fun c' => ?_, ?_⟩
  · rw [List.append_nil, List.countP_append, hnone, disconnect_once, Nat.zero_add]
  · rw [closeDatabase_opened _ c hopened]
    exact ⟨hclear.statements, hclear.views⟩

/-- After a failure the connection is closed first, and the view is given up
    nevertheless. The view is held by what failed, which is gone only when the
    failure has been dealt with; closing its cursor then does not need the
    connection. -/
theorem givesUp_after_failure (opened : s.database.connection = some c) (hs : s.HoldsOnly p.held)
    (idle : ∀ st ∈ s.statements, st.holding = false) (f : Fault) :
    s.GivesUp ((s.closeDatabase.failedRun f).2.releaseHeld p) c := by
  rcases failedRun_logs f s.closeDatabase with ⟨notes, hlogs⟩
  rw [hlogs]
  have hclose := (closeDatabase_sheds s c opened).trans (logged_sheds _ notes)
  have hsame : s.closeDatabase.views = s.views ∧ s.closeDatabase.statements = s.statements := by
    rw [closeDatabase_opened s c opened]
    exact ⟨rfl, rfl⟩
  have hholds : HoldsOnly { s.closeDatabase with log := s.closeDatabase.log ++ notes } p.held :=
    hs.of_same hsame.1
  rcases releaseHeld_sheds p { s.closeDatabase with log := s.closeDatabase.log ++ notes } with
    ⟨ks, hsheds, hnone, -⟩
  refine ⟨_, hclose.trans hsheds, fun c' => ?_, hholds.clear ?_⟩
  · rw [List.append_nil, List.countP_append, hnone, disconnect_once, Nat.add_zero]
  · intro st hst
    rw [hsame.2] at hst
    exact idle st hst

end

/-! ### Runs -/

/-- The session of a database that was just opened, with its pragmas behind
    it. -/
def briefed (e : Engine) (s : Session) (target : Text) (uri : Bool) (sqls : List Text) : Session :=
  ((s.linked target uri).instructed sqls ((s.briefing e target uri sqls).filterMap
    (Event.warning? s.database.path))).adopt s.connections.length

/-- If failures are failures of the database, a database with a target and with
    pragmas that can be written is opened, or its connect fails. The other ways
    to fail are ruled out one by one: there is a target, there is SQL for all
    pragmas, and failures of pragmas are only warned of. -/
theorem openDatabase_proper (e : Engine) (proper : e.FailsProperly) (s : Session)
    (closed : s.database.connection = none) (target : Text) (uri : Bool) (sqls : List Text)
    (path : Path.target s.database.config.readOnly s.database.here s.database.path =
      .ok (target, uri))
    (written : s.database.config.pragmaStatements = .ok sqls) :
    (∃ x, e.connect s.past target = some x ∧
        s.openDatabase e = (.error (.access (.ofEngine x)), s.dialled target uri)) ∨
      e.connect s.past target = none ∧
        s.openDatabase e = (.ok (), s.briefed e target uri sqls) := by
  have hcases := openDatabase_cases e s closed
  generalize s.openDatabase e = o at hcases ⊢
  cases hcases with
  | astray f path' =>
      rw [path] at path'
      cases path'
  | unconnected target' uri' x path' failed =>
      rw [path] at path'
      cases path'
      refine Or.inl ⟨x, failed, ?_⟩
      rw [Fault.ofEngine, if_pos (proper.connect _ _ x failed)]
  | unwritten target' uri' f path' connected unwritten =>
      rw [written] at unwritten
      cases unwritten
  -- Failures of pragmas are failures of the database, and none of these is
  -- raised.
  | interrupted target' uri' done rest x path' connected _ interrupted =>
      rw [briefing, proper.raised_none] at interrupted
      cases interrupted
  | opened target' uri' sqls' path' connected written' finished =>
      rw [path] at path'
      cases path'
      rw [written] at written'
      cases written'
      exact Or.inr ⟨connected, rfl⟩

/-- Rows that are printed from a database that was opened for it: in the end
    everything is given up, in one order or the other. -/
theorem printFromDatabase_opened (e : Engine) (style : RowStyle) (sql : Sql) (s u : Session)
    (hopen : s.openDatabase e = (.ok (), u)) (separate : u.Separate) (clear : u.Clear)
    (c : ConnectionId) (opened : u.database.connection = some c) :
    ∃ t held, u.Leaves e t held ∧ t.GivesUp (s.printFromDatabase e style sql).2.2 c := by
  rcases hprinted : u.printRows e style sql with ⟨o, p, t⟩
  have hleaves := printRows_leaves e style sql u separate clear c opened hprinted
  have hopened : t.database.connection = some c := by
    rcases hleaves.works with ⟨ks, hf, -⟩
    rw [hf.database]
    exact opened
  refine ⟨t, p.held, hleaves, ?_⟩
  rcases o with f | _
  · simp only [printFromDatabase, hopen, hprinted]
    exact givesUp_after_failure hopened hleaves.holds hleaves.idle f
  · simp only [printFromDatabase, hopen, hprinted]
    exact givesUp_after_success hopened hleaves.holds hleaves.idle _

/-- Where no handle is used but by its statement, accounts stay balanced. -/
theorem Leads.balanced {s t : Session} (hl : s.Leads Touch.isMediated t) (h : HandleId)
    (hs : (s.account h).Balanced) : (t.account h).Balanced := by
  refine hl.preserves (fun u => (u.account h).Balanced) ?_ hs
  intro a u w ha m hu
  exact (m.entry a u w h).balanced a _ _ ha hu

end Session

namespace Arguments

/-- The session that a run begins with, its configuration being loaded. -/
def begun (a : Arguments) (around : Surroundings) (config : Config) : Session :=
  (Session.start a.database config around.here).noted (.loadingConfig (a.configFile around).1)

/-- The session that a run ends with. -/
def finished (a : Arguments) (around : Surroundings) (e : Engine) (config : Config) : Session :=
  ((a.begun around config).printFromDatabase e a.style a.sql).2.2

section

variable (a : Arguments) (around : Surroundings) (config : Config)

theorem begun_balanced (h : HandleId) : ((a.begun around config).account h).Balanced :=
  Session.reachable_balanced .oneRow (Session.start a.database config around.here) (.start _ _ _) h

theorem begun_separate : (a.begun around config).Separate :=
  ⟨List.nodup_nil, fun _ hh => absurd hh List.not_mem_nil⟩

end

section

variable {a : Arguments} {around : Surroundings} {e : Engine} {config : Config} {target : Text}
  {uri : Bool} {sqls : List Text}

/-- A run that cannot connect has nothing to clean up, and only makes a note of
    the failure. -/
theorem finished_unconnected {f : Fault}
    (hopen : (a.begun around config).openDatabase e =
      (.error f, (a.begun around config).dialled target uri)) :
    (a.finished around e config).CleansUp ∧
      (a.finished around e config).connections.length = 0 ∧
      (a.finished around e config).handles.length = 0 := by
  have hfinished : a.finished around e config =
      (((a.begun around config).dialled target uri).failedRun f).2 := by
    simp only [finished, Session.printFromDatabase, hopen]
  rcases Session.failedRun_logs f ((a.begun around config).dialled target uri) with ⟨notes, hlogs⟩
  rw [hfinished, hlogs]
  exact ⟨⟨fun _ => rfl, fun _ => rfl⟩, rfl, rfl⟩

/-- A run that has connected has made one connection and one handle, and cleans
    up. The connection is counted in the calls: none of those before the end
    closes one, and of those at the end one does. The cursor is counted by its
    account. -/
theorem finished_connected
    (hopen : (a.begun around config).openDatabase e =
      (.ok (), (a.begun around config).briefed e target uri sqls)) :
    (a.finished around e config).CleansUp ∧
      (a.finished around e config).connections.length = 1 ∧
      (a.finished around e config).handles.length = 1 := by
  have hlead := ((a.begun around config).openDatabase_leads e).mono Touch.isMediated_of_ofDatabase
  rw [hopen] at hlead
  have hclear : ((a.begun around config).briefed e target uri sqls).Clear :=
    ⟨fun _ hst => absurd hst List.not_mem_nil, fun _ hview => absurd hview List.not_mem_nil⟩
  rcases Session.printFromDatabase_opened e a.style a.sql _ _ hopen
      ((a.begun_separate around config).leads hlead) hclear 0 rfl with
    ⟨t, held, hleaves, ks, hsheds, honce, hcleared⟩
  rcases hleaves.works with ⟨work, hf, hwork⟩
  have hconnections : (a.finished around e config).connections.length = 1 :=
    hsheds.connections.trans (hf.connections_kept hwork).1
  refine ⟨⟨fun c => ?_, fun h => ?_⟩, hconnections, hsheds.handles.trans hleaves.handles⟩
  · -- What was called before is a connect, the pragmas, and work.
    have hbefore : ∀ k ∈ t.calls, ∀ c', k ≠ .disconnect c' := by
      rintro k hk c' rfl
      rw [hf.calls] at hk
      rcases List.mem_append.mp hk with hopening | hworking
      · rcases List.mem_append.mp hopening with hconnect | hpragma
        · cases List.mem_singleton.mp hconnect
        · rcases List.mem_map.mp hpragma with ⟨sql, -, hsql⟩
          cases hsql
      · cases hwork _ hworking
    have hcalls : (a.finished around e config).calls = t.calls ++ ks := hsheds.calls
    rw [hcalls, List.countP_append, Call.disconnects_none _ hbefore, honce, hconnections,
      Nat.zero_add]
    simp only [Nat.lt_one_iff]
  · exact hcleared.closings h (((hlead.trans hleaves.leads).trans hsheds.leads).balanced h
      (a.begun_balanced around config h))

end

end Arguments

end RowScope
