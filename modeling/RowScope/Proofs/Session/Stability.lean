import RowScope.Proofs.Column.Reading
import RowScope.Proofs.Session.Shares

/-!
# Stable Views

A view shows one cell of the row that was current when the view was made, and
goes on showing it until its share is given back or its statement moves on. That
the statement is closed does not matter, and neither does what happens to the
database, to other statements and to other views.

Two things are behind this. As long as the view holds its share the handle is
not finalized, for which it is enough that every holder is counted; and only an
open statement sets the row of its handle, and no two statements have the same
one.

## Main definitions

* `Session.Separate`: No two statements have the same handle.
* `Session.Shows`: A view shows a column of a row.
* `Session.Obtains`: How a program gets a view.
* `Command.spares`, `Session.Spares`: Commands that leave a view and its
  statement alone.
* `Session.Answers`: A view answers by the projections of a cell.

## Theorems

* `Leads.unfinalized`: A handle of which a view holds a share is not finalized.
* `Shows.leads`: A view shows what it showed.
* `Obtains.shows`: A view that was made shows a column of the current row.
* `Shows.answers`: A view answers by the projections of what it shows.
* `view_stable`: Whatever a program does that spares a view, the view answers as
  before.
-/

namespace RowScope

namespace Session

/-- No two statements have the same handle. -/
def Separate (s : Session) : Prop :=
  (s.statements.map (·.handle)).Nodup ∧ ∀ h ∈ s.statements.map (·.handle), h < s.handles.length

/-- A move keeps the statements apart: the only one that makes a statement makes
    the handle for it, and that lies beyond all the handles that statements
    have. -/
theorem Separate.move (a : Touch) (s t : Session) (m : Move a s t) (hs : s.Separate) :
    t.Separate := by
  unfold Separate at hs ⊢
  rcases m.owners a s t with ⟨hmap, hlen⟩ | ⟨-, hmap, hlen⟩
  · rw [hmap]
    refine ⟨hs.1, fun h hh => ?_⟩
    have hlt := hs.2 h hh
    rcases hlen with heq | ⟨-, heq⟩
    · omega
    · omega
  · rw [hmap]
    refine ⟨?_, fun h hh => ?_⟩
    · -- The new handle lies beyond all that statements had.
      refine List.nodup_append.mpr ⟨hs.1, List.pairwise_singleton _ _, fun h hh h' hh' heq => ?_⟩
      have hlt := hs.2 h hh
      rw [heq, List.mem_singleton.mp hh'] at hlt
      exact Nat.lt_irrefl _ hlt
    · rcases List.mem_append.mp hh with hold | hnew
      · have hlt := hs.2 h hold
        omega
      · rw [List.mem_singleton] at hnew
        omega

/-- No two statements have the same handle, wherever commands lead, even if
    handles are used directly. -/
theorem reachable_separate (e : Engine) (allowed : Command → Prop) (s : Session)
    (hs : Reachable e allowed s) : s.Separate :=
  reachable_preserves e allowed Separate
    (fun _ _ _ => ⟨List.nodup_nil, fun _ hh => absurd hh List.not_mem_nil⟩)
    (fun _ _ a u w _ _ m hu => hu.move a u w m) s hs

theorem Separate.same (s : Session) (hs : s.Separate) (id id' : StatementId) (st st' : Statement)
    (hst : s.statements[id]? = some st) (hst' : s.statements[id']? = some st')
    (heq : st.handle = st'.handle) : id = id' := by
  have hlt : id < (s.statements.map (·.handle)).length := by
    rw [List.length_map]
    exact (List.getElem?_eq_some_iff.mp hst).1
  refine (List.getElem?_inj hlt hs.1).mp ?_
  rw [List.getElem?_map, List.getElem?_map, hst, hst', Option.map_some, Option.map_some, heq]

/-- A view shows the column at an index of a row, and this is the current row of
    its handle. -/
structure Shows (s : Session) (v : ViewId) (id : StatementId) (h : HandleId) (i : Nat) (r : Row) :
    Prop where
  view : ∃ view, s.views[v]? = some view ∧ view.handle = h ∧ view.index = i ∧ view.holding = true
  statement : ∃ st, s.statements[id]? = some st ∧ st.handle = h
  handle : ∃ handle, s.handles[h]? = some handle ∧ handle.finalized = false ∧ handle.row = some r

/-- A sequence of moves keeps an account backed, if only holders give back
    shares in it. -/
theorem Leads.backed {P : Touch → Prop} {s t : Session} (hl : s.Leads P t)
    (hP : ∀ a, P a → a.isHeld) (h : HandleId) (hb : (s.account h).Backed) :
    (t.account h).Backed :=
  hl.preserves (fun u => (u.account h).Backed)
    (fun a u w ha m hu => (m.entry a u w h).backed a _ _ (hP a ha) hu) hb

/-- A handle of which a view holds a share is not finalized. An account ends
    only when its last holder has left, and the view is among the holders as
    long as it is not released. -/
theorem Leads.unfinalized {P : Touch → Prop} {s t : Session} (hl : s.Leads P t)
    (hP : ∀ a, P a → a.isHeld) (v : ViewId) (hv : ¬ P (.release v)) (view : View)
    (hview : s.views[v]? = some view) (holding : view.holding = true)
    (hb : (s.account view.handle).Backed) (hf : (s.account view.handle).finalized = false) :
    (t.account view.handle).finalized = false := by
  -- On the moves, since the account tells only of a single entry whom it ends
  -- with.
  induction hl with
  | refl => exact hf
  | @tail u w hu hm ih =>
      rcases hm with ⟨a, ha, m⟩
      have hleads : s.Leads P w := Relation.ReflTransGen.tail hu ⟨a, ha, m⟩
      rcases hleads.view_kept v view hview with ⟨view', hview', hhandle, -, hholding⟩
      rcases hfin : (w.account view.handle).finalized with _ | _
      · rfl
      · -- The view is still among the holders, but the last one of these has
        -- left.
        have hzero := (m.entry a u w view.handle).last a _ _ (hP a ha)
          (Leads.backed hu hP view.handle hb) ih hfin
        have hpos := countP_pos_of_getElem? (View.holds view.handle) w.views v view' hview' (by
          simp only [View.holds, hholding hv, holding, hhandle, BEq.rfl, Bool.and_self])
        have hcount : (w.account view.handle).views = w.views.countP (View.holds view.handle) := rfl
        omega

/-- A view shows what it showed, unless its share is given back or the row of
    its handle set. The handle stays where it is because the view holds it, and
    the row stays where it is because the handle was not finalized. -/
theorem Shows.leads {P : Touch → Prop} {s t : Session} {v : ViewId} {id : StatementId}
    {h : HandleId} {i : Nat} {r : Row} (hs : s.Shows v id h i r) (hl : s.Leads P t)
    (hP : ∀ a, P a → a.isHeld) (hb : (s.account h).Backed) (hv : ¬ P (.release v))
    (hrow : ¬ P (.row h)) : t.Shows v id h i r := by
  rcases hs with ⟨⟨view, hview, rfl, hindex, holding⟩, ⟨st, hst, hown⟩, handle, hh, hfin, hr⟩
  rcases hl.view_kept v view hview with ⟨view', hview', hhandle', hindex', hholding'⟩
  rcases hl.statement_kept id st hst with ⟨st', hst', hown', -⟩
  rcases hl.handle_kept view.handle handle hh with ⟨handle', hh', -, hrow', -⟩
  -- Only the end of the handle could have taken the row away.
  have hopen : handle'.finalized = false := by
    have hacc := hl.unfinalized hP v hv view hview holding hb
      (by rw [account_of_some s view.handle handle hh]; exact hfin)
    rw [account_of_some t view.handle handle' hh'] at hacc
    exact hacc
  have hset : ¬ P (.setRow view.handle) := fun hc => hP _ hc
  exact ⟨⟨view', hview', hhandle', by rw [hindex', hindex], by rw [hholding' hv, holding]⟩,
    ⟨st', hst', by rw [hown', hown]⟩, handle', hh', hopen, by rw [hrow' hrow hset hopen, hr]⟩

/-- A program gets a view of the column at an index: by that index, by the name
    of the column, or as the answer to a query for one value. The statement is
    the one that the view was made by. -/
inductive Obtains (e : Engine) (s : Session) : ViewId → StatementId → Nat → Session → Prop
  | index (id : StatementId) (i : Nat) (v : ViewId) (t : Session)
      (got : s.getColumn id (.index i) = (.ok v, t)) : Obtains e s v id i t
  | name (id : StatementId) (name : Text) (i : Nat) (v : ViewId) (t : Session)
      (place : (s.columnIndex id name).1 = .ok i)
      (got : s.getColumn id (.name name) = (.ok v, t)) : Obtains e s v id i t
  | first (sql : Sql) (params : Params) (v : ViewId) (t : Session)
      (got : s.queryFirst e sql params = (.ok v, t)) : Obtains e s v s.statements.length 0 t

/-- What was read from a statement shows the current row. The number of the
    column is the index that was asked for, or the place that the name has when
    it is asked for. -/
theorem getColumn_shows (id : StatementId) (key : Key) (s t : Session) (v : ViewId)
    (hb : ∀ h, (s.account h).Backed) (got : s.getColumn id key = (.ok v, t)) :
    ∃ h i r handle, t.Shows v id h i r ∧ s.handles[h]? = some handle ∧ handle.row = some r ∧
      (key = .index i ∨ ∃ name, key = .name name ∧ (s.columnIndex id name).1 = .ok i) := by
  rcases getColumn_ok id key s t v got with ⟨st, handle, u, j, hs, hl, rfl, rfl⟩
  rcases (statement?_eq_some_iff s id st handle).mp hs with ⟨hst, hh⟩
  rcases locate_ok id st handle key s u j hl with ⟨hrow, hnonneg, -⟩
  rcases Int.eq_ofNat_of_zero_le hnonneg with ⟨i, rfl⟩
  have hbeside := locate_beside id st handle key s
  have hleads := locate_leads id st handle key s hs
  rw [hl] at hbeside hleads
  rcases hbeside with ⟨hhandles, hviews⟩
  rcases hleads.statement_kept id st hst with ⟨st', hst', hown, -⟩
  rcases Option.isSome_iff_exists.mp hrow with ⟨r, hr⟩
  -- A handle with a row is not finalized.
  have hopen : handle.finalized = false := by
    rcases hf : handle.finalized with _ | _
    · rfl
    · have hacc := (hb st.handle).ended
      rw [account_of_some s st.handle handle hh] at hacc
      exact absurd (hacc hf).1 (by rw [hrow]; exact Bool.noConfusion)
  have hmodify := getElem?_modify_of_some u.handles (fun x => { x with shares := x.shares + 1 })
    st.handle st.handle handle (by rw [hhandles]; exact hh)
  rw [if_pos rfl] at hmodify
  refine ⟨st.handle, i, r, handle, ⟨⟨⟨st.handle, i, true⟩, ?_, rfl, rfl, rfl⟩, ⟨st', hst', hown⟩,
    _, hmodify, hopen, hr⟩, hh, hr, ?_⟩
  · rw [← hviews]
    exact List.getElem?_concat_length
  · rcases locate_key id st handle key s u i hl with hkey | ⟨name, n, hkey, hplace, hn⟩
    · exact Or.inl hkey
    · refine Or.inr ⟨name, hkey, ?_⟩
      rw [columnIndex, hs]
      simp only [hplace]
      exact congrArg Except.ok (Int.ofNat_inj.mp hn).symm

/-- A step gives back no share and sets no row but that of its own handle. -/
theorem isHeld_of_ofStep (s : Session) (id : StatementId) (a : Touch) (ha : Touch.ofStep s id a) :
    a.isHeld := by
  cases a with
  | giveBack h => exact False.elim ha
  | setRow h => exact False.elim ha
  | _ => trivial

/-- The answer to a query for one value shows the row that the query has
    yielded, and its handle is a new one. The query closes its statement before
    it answers, and from then on the view is the only holder, which is
    enough. -/
theorem queryFirst_shows (e : Engine) (sql : Sql) (params : Params) (s t : Session) (v : ViewId)
    (hb : ∀ h, (s.account h).Backed) (got : s.queryFirst e sql params = (.ok v, t)) :
    ∃ h r, t.Shows v s.statements.length h 0 r ∧ s.handles.length ≤ h := by
  have hprepare := prepare_leads (fun a => a.isHeld) trivial sql params s
  unfold queryFirst at got
  split at got
  · exact absurd got refused_ne_ok
  · rename_i id u heq
    rw [heq] at hprepare
    rcases prepare_ok sql params s u id heq with ⟨rfl, c, rfl⟩
    have hstep := (step_leads e s.statements.length (s.newStatement c sql params).2).mono
      (isHeld_of_ofStep _ _)
    have hnew : (s.newStatement c sql params).2.statements[s.statements.length]? =
        some ⟨s.handles.length, sql, params, false, false, true, none⟩ :=
      List.getElem?_concat_length
    split at got
    · exact absurd got refused_ne_ok
    · rename_i more w hs
      rw [hs] at hstep
      simp only [Prod.mk.injEq] at got
      have hbw : ∀ h, (w.account h).Backed := fun h =>
        (hprepare.trans hstep).backed (fun _ ha => ha) h (hb h)
      rcases getColumn_shows s.statements.length (.index 0) w _ v hbw (Prod.ext got.1 rfl) with
        ⟨h, i, r, handle, hshows, hh, hr, hkey⟩
      have hi : i = 0 := by
        rcases hkey with hkey | ⟨name, hkey, -⟩
        · exact (Int.ofNat_inj.mp (Key.index.inj hkey)).symm
        · exact Key.noConfusion hkey
      have hleads := getColumn_leads w.views.length s.statements.length (.index 0) w
      -- The handle is the one that was made with the statement.
      have hown : h = s.handles.length := by
        rcases hstep.statement_kept _ _ hnew with ⟨st1, hst1, hown1, -⟩
        rcases hleads.statement_kept _ st1 hst1 with ⟨st2, hst2, hown2, -⟩
        rcases hshows.statement with ⟨st3, hst3, hown3⟩
        rw [hst2, Option.some.injEq] at hst3
        rw [← hown3, ← hst3, hown2, hown1]
      have hbx := (hleads.mono (ofQuery_of_ofReading w w.views.length (Nat.le_refl _)
        s.statements.length 0)).backed (fun a ha => by
          cases a with
          | giveBack _ => exact ha
          | setRow _ => exact ha
          | _ => trivial) h (hbw h)
      -- That the statement is closed then takes nothing from the view.
      have hclose : (w.getColumn s.statements.length (.index 0)).2.Leads
          (fun a => a = .close s.statements.length) t :=
        Leads.one _ rfl (got.2 ▸ .close s.statements.length)
      refine ⟨h, r, ?_, Nat.le_of_eq hown.symm⟩
      rw [hi] at hshows
      exact hshows.leads hclose (fun a ha => by rw [ha]; trivial) hbx
        (fun hc => Touch.noConfusion hc) (fun hc => Touch.noConfusion hc)

/-- What was obtained shows the row that is current then, which was the current
    row of the handle before if the handle was there. -/
theorem Obtains.shows (e : Engine) (s t : Session) (v : ViewId) (id : StatementId) (i : Nat)
    (hb : ∀ h, (s.account h).Backed) (hv : Obtains e s v id i t) :
    ∃ h r, t.Shows v id h i r ∧
      ∀ before, s.handles[h]? = some before → before.row = some r := by
  have same : ∀ {h : HandleId} {r : Row} {handle : Handle}, s.handles[h]? = some handle →
      handle.row = some r → ∀ before, s.handles[h]? = some before → before.row = some r :=
    fun hh hr before hbefore => by
      rw [hh, Option.some.injEq] at hbefore
      rw [← hbefore, hr]
  cases hv with
  | index id i v t got =>
      rcases getColumn_shows id (.index i) s t v hb got with
        ⟨h, j, r, handle, hshows, hh, hr, hkey | ⟨name, hkey, -⟩⟩
      · rw [Int.ofNat_inj.mp (Key.index.inj hkey)]
        exact ⟨h, r, hshows, same hh hr⟩
      · exact Key.noConfusion hkey
  | name id name i v t place got =>
      rcases getColumn_shows id (.name name) s t v hb got with
        ⟨h, j, r, handle, hshows, hh, hr, hkey | ⟨name', hkey, hplace⟩⟩
      · exact Key.noConfusion hkey
      · rw [← Key.name.inj hkey, place, Except.ok.injEq] at hplace
        rw [hplace]
        exact ⟨h, r, hshows, same hh hr⟩
  -- The handle was not there before the query, so nothing is claimed of its
  -- row.
  | first sql params v t got =>
      rcases queryFirst_shows e sql params s t v hb got with ⟨h, r, hshows, hnew⟩
      refine ⟨h, r, hshows, fun before hbefore => ?_⟩
      exact absurd (List.getElem?_eq_some_iff.mp hbefore).1 (Nat.not_lt.mpr hnew)

end Session

/-- A command neither gives back the share of a view, nor does it step or reset
    the view's statement while this is open. -/
def Command.spares (c : Command) (s : Session) (v : ViewId) (id : StatementId) : Prop :=
  c.keepsCounts ∧ v ∉ c.released ∧
    (c.moved? = some id → ∀ st, s.statements[id]? = some st → st.holding = false)

namespace Session

/-- All commands of a run spare a view and its statement. -/
def Spares (e : Engine) (v : ViewId) (id : StatementId) : List Command → Session → Prop
  | [], _ => True
  | c :: rest, s => c.spares s v id ∧ Spares e v id rest (s.perform e c).2

/-- A command that spares a view does not move its statement. -/
theorem Shows.unmoved {s : Session} {v : ViewId} {id : StatementId} {h : HandleId} {i : Nat}
    {r : Row} (hs : s.Shows v id h i r) (hsep : s.Separate) (c : Command) (hc : c.spares s v id) :
    ¬ c.Moves s h := by
  rintro ⟨id', hmoved, st', hst', holding, hown'⟩
  rcases hs.statement with ⟨st, hst, hown⟩
  rw [hsep.same s id' id st' st hst' hst (by rw [hown', hown])] at hmoved hst'
  rw [hc.2.2 hmoved st' hst'] at holding
  exact Bool.noConfusion holding

/-- The view and the handle were made before, so they are none of those that a
    command makes. -/
theorem Shows.made {s : Session} {v : ViewId} {id : StatementId} {h : HandleId} {i : Nat}
    {r : Row} (hs : s.Shows v id h i r) : v < s.views.length ∧ h < s.handles.length := by
  rcases hs.view with ⟨view, hview, -⟩
  rcases hs.handle with ⟨handle, hh, -⟩
  exact ⟨(List.getElem?_eq_some_iff.mp hview).1, (List.getElem?_eq_some_iff.mp hh).1⟩

/-- A command that spares a view leaves what it shows: it does not release the
    view, and it does not set the row, since it steps neither the view's
    statement nor another one of the same handle. -/
theorem Shows.perform {s : Session} {v : ViewId} {id : StatementId} {h : HandleId} {i : Nat}
    {r : Row} (hs : s.Shows v id h i r) (e : Engine) (hr : Reachable e Command.keepsCounts s)
    (c : Command) (hc : c.spares s v id) : (s.perform e c).2.Shows v id h i r := by
  refine hs.leads (perform_leads e c s) (c.isHeld_of_touches hc.1 s) (reachable_backed e s hr h)
    (fun hrelease => ?_) (fun hrow => ?_)
  -- What the command makes itself is neither this view nor this handle.
  · rcases hrelease with hmem | hle
    · exact hc.2.1 hmem
    · exact Nat.not_lt.mpr hle hs.made.1
  · rcases hrow with hmoves | hle
    · exact hs.unmoved (reachable_separate e _ s hr) c hc hmoves
    · exact Nat.not_lt.mpr hle hs.made.2

theorem Shows.run {s : Session} {v : ViewId} {id : StatementId} {h : HandleId} {i : Nat} {r : Row}
    (hs : s.Shows v id h i r) (e : Engine) (hr : Reachable e Command.keepsCounts s)
    (cs : List Command) (hcs : s.Spares e v id cs) : (s.run e cs).2.Shows v id h i r := by
  -- The run is reachable from what was reachable, so each command finds the
  -- invariants again.
  induction cs generalizing s with
  | nil => exact hs
  | cons c rest ih =>
      exact ih (hs.perform e hr c hcs.1) (hr.perform c hcs.1.1) hcs.2

/-- The answer about the name of the column depends on the names of the result
    alone. -/
theorem Shows.name {s t : Session} {v : ViewId} {id : StatementId} {h : HandleId} {i : Nat}
    {r : Row} (hs : s.Shows v id h i r) (ht : t.Shows v id h i r) (x y : Handle)
    (hx : s.handles[h]? = some x) (hy : t.handles[h]? = some y)
    (heq : y.cursor.columns = x.cursor.columns) :
    t.ask (.get v .name) = s.ask (.get v .name) := by
  have hname : ∀ (u : Session) (z : Handle), u.Shows v id h i r → u.handles[h]? = some z →
      u.ask (.get v .name) = (z.nameAt i).map .text := by
    intro u z hu hz
    rcases hu.view with ⟨view, hview, rfl, hindex, -⟩
    simp only [ask, askView, column?, hview, hz, Option.bind_eq_bind, Option.bind_some,
      Option.pure_def, Handle.column, Column.get, hindex]
    rcases z.nameAt i with f | name
    · rfl
    · rfl
  rw [hname t y ht hy, hname s x hs hx, Handle.nameAt, Handle.nameAt, heq]

/-- A run that spares a view keeps the name of its column too, unless the cursor
    is used directly. -/
theorem Shows.run_name {s : Session} {v : ViewId} {id : StatementId} {h : HandleId} {i : Nat}
    {r : Row} (hs : s.Shows v id h i r) (e : Engine) (hr : Reachable e Command.keepsCounts s)
    (cs : List Command) (hcs : s.Spares e v id cs) (hdirect : ∀ c ∈ cs, c ≠ .executeHandle h) :
    (s.run e cs).2.ask (.get v .name) = s.ask (.get v .name) := by
  induction cs generalizing s with
  | nil => rfl
  | cons c rest ih =>
      have hnext := hs.perform e hr c hcs.1
      have hrest := ih hnext (hr.perform c hcs.1.1) hcs.2
        (fun c' hc' => hdirect c' (List.mem_cons_of_mem c hc'))
      rcases hs.handle with ⟨x, hx, -⟩
      rcases (perform_leads e c s).handle_kept h x hx with ⟨y, hy, hcol, -⟩
      -- The names of the result change only if the cursor is used.
      have hfirst := hs.name hnext x y hx hy (hcol (fun hcursor => by
        rcases hcursor with (hmoves | hexec) | hle
        · exact hs.unmoved (reachable_separate e _ s hr) c hcs.1 hmoves
        · exact hdirect c List.mem_cons_self hexec
        · exact Nat.not_lt.mpr hle hs.made.2))
      exact hrest.trans hfirst

/-- A view answers by the projections of a cell, whatever it is asked. -/
structure Answers (s : Session) (v : ViewId) (i : Nat) (cell : Cell) : Prop where
  get : ∀ g answer, g.projection? i cell = some answer →
    s.ask (.get v g) = ofCellReading answer
  textOr : ∀ default, s.ask (.textOr v default) =
    ofCellReading ((cell.textOr default).map .text)
  convert : ∀ target, s.ask (.convert v target) = (cell.alone v i).convert target
  written : s.ask (.written v) =
    ofCellReading (cell.fullText.map fun t => .list [.text t, .truth true])

/-- A view answers by the projections of the cell that it shows. -/
theorem Shows.answers {s : Session} {v : ViewId} {id : StatementId} {h : HandleId} {i : Nat}
    {r : Row} (hs : s.Shows v id h i r) (cell : Cell) (hcell : r[i]? = some cell) :
    s.Answers v i cell := by
  rcases hs with ⟨⟨view, hview, rfl, hindex, -⟩, -, handle, hh, -, hr⟩
  -- The column that the view yields has this cell, so the projections say all
  -- about it.
  have hat : (handle.column v i).cell = .ok cell := by
    have hnat : ¬ ((i : Int) < 0) := by omega
    simp only [Handle.column, Handle.cellAt, hr, fromEnd?, hnat, if_false, Int.toNat_natCast, hcell]
  have hcolumn : s.column? v = some (handle.column v i) := by
    simp only [column?, hview, hh, Option.bind_eq_bind, Option.bind_some, Option.pure_def, hindex]
  have hrow : (handle.column v i).hasRow = true := by
    rw [Handle.column, Handle.hasRow, hr]
    rfl
  refine ⟨fun g answer hg => ?_, fun default => ?_, fun target => ?_, ?_⟩
  · rw [ask, askView, hcolumn]
    exact Column.get_eq_projection _ cell hat hrow g answer hg
  · rw [ask, askView, hcolumn]
    simp only [Column.textOr, Column.read_of_cell _ cell hat]
    rcases cell.textOr default with f | text
    · rfl
    · rfl
  · rw [ask, askView, hcolumn]
    exact Column.convert_congr (handle.column v i) (cell.alone v i) cell hat rfl rfl rfl target
  · rw [ask, askView, hcolumn]
    simp only [Column.get, Column.read_of_cell _ cell hat]
    rcases cell.fullText with f | text
    · rfl
    · rfl

/-- A view shows the row that was current when it was obtained, and goes on
    showing it. Whatever a program does afterwards, as long as it neither gives
    back the share of the view nor steps or resets the statement while that is
    open, the handle is not finalized, its row is the same, and every question
    to the view is answered by the cell of that row. The name of the column is
    the same as well, unless the cursor is executed directly.

    That the view holds a share is used once, in `Leads.unfinalized`; all the
    rest is that the row of a handle is set by nobody but an open statement of
    that handle. -/
theorem view_stable (e : Engine) (s t : Session) (hs : Reachable e Command.keepsCounts s)
    (v : ViewId) (id : StatementId) (i : Nat) (hv : Obtains e s v id i t) :
    ∃ st handle r, t.statements[id]? = some st ∧ t.handles[st.handle]? = some handle ∧
      handle.row = some r ∧
      (∀ before, s.handles[st.handle]? = some before → before.row = some r) ∧
      ∀ cs, t.Spares e v id cs →
        (∃ after, (t.run e cs).2.handles[st.handle]? = some after ∧ after.finalized = false ∧
          after.row = some r) ∧
        (∀ cell, r[i]? = some cell → (t.run e cs).2.Answers v i cell) ∧
        ((∀ c ∈ cs, c ≠ .executeHandle st.handle) →
          (t.run e cs).2.ask (.get v .name) = t.ask (.get v .name)) := by
  -- To obtain a view is a command, too.
  have ht : Reachable e Command.keepsCounts t := by
    cases hv with
    | index id i v t got =>
        have hnext := hs.perform (.getColumn id (.index i)) trivial
        simp only [perform, viewing_state, got] at hnext
        exact hnext
    | name id name i v t _ got =>
        have hnext := hs.perform (.getColumn id (.name name)) trivial
        simp only [perform, viewing_state, got] at hnext
        exact hnext
    | first sql params v t got =>
        have hnext := hs.perform (.queryFirst sql params) trivial
        simp only [perform, viewing_state, got] at hnext
        exact hnext
  -- From here on it does not matter how the view was obtained, only what it
  -- shows.
  rcases hv.shows e s t v id i (reachable_backed e s hs) with ⟨h, r, hshows, hbefore⟩
  rcases hshows.handle with ⟨handle, hh, hfin, hr⟩
  rcases hshows.statement with ⟨st, hst, rfl⟩
  refine ⟨st, handle, r, hst, hh, hr, hbefore, fun cs hcs => ⟨?_, fun cell hcell => ?_, ?_⟩⟩
  · exact (hshows.run e ht cs hcs).handle
  · exact (hshows.run e ht cs hcs).answers cell hcell
  · exact hshows.run_name e ht cs hcs

/-- A program that has stepped a statement to its first row. -/
def stepping : List Command := [.openDatabase, .prepare (.text []) .empty, .step 0]

theorem stepping_reachable :
    Reachable .oneRow Command.keepsCounts (unopened.run .oneRow stepping).2 := by
  refine reachable_run .oneRow _ stepping unopened (.start [] .standard ⟨.root, []⟩)
    (fun c hc => ?_)
  simp only [stepping, List.mem_cons, List.not_mem_nil, or_false] at hc
  rcases hc with rfl | rfl | rfl
  all_goals trivial

/-- A program that closes the statement, steps and resets it nevertheless, and
    closes and opens the database. -/
def meddling : List Command :=
  [.closeStatement 0, .step 0, .reset 0 none, .closeDatabase, .openDatabase]

/-- A view of the first column of that row. -/
def viewed : Session := ((unopened.run .oneRow stepping).2.getColumn 0 (.index 0)).2

/-- The statement is closed first, so that stepping and resetting it are refused
    and the view is spared. -/
theorem meddling_spares : viewed.Spares .oneRow 0 0 meddling :=
  ⟨⟨trivial, List.not_mem_nil, fun hc => nomatch hc⟩,
    ⟨trivial, List.not_mem_nil, fun _ st hst => by rw [← Option.some.inj hst]⟩,
    ⟨trivial, List.not_mem_nil, fun _ st hst => by rw [← Option.some.inj hst]⟩,
    ⟨trivial, List.not_mem_nil, fun hc => nomatch hc⟩,
    ⟨trivial, List.not_mem_nil, fun hc => nomatch hc⟩, trivial⟩

/-- The view answers with the value of the row through all of it. -/
theorem view_stable_meddling :
    Obtains .oneRow (unopened.run .oneRow stepping).2 0 0 0 viewed ∧
      (viewed.run .oneRow meddling).2.Answers 0 0 (.integer 7) := by
  have hv : Obtains .oneRow (unopened.run .oneRow stepping).2 0 0 0 viewed :=
    .index 0 0 0 viewed rfl
  rcases view_stable .oneRow _ viewed stepping_reachable 0 0 0 hv with
    ⟨st, handle, r, hst, hh, hr, -, hlater⟩
  rw [← Option.some.inj hst] at hh
  rw [← Option.some.inj hh] at hr
  exact ⟨hv, (hlater meddling meddling_spares).2.1 (.integer 7)
    (by rw [← Option.some.inj hr]; rfl)⟩

end Session

end RowScope
