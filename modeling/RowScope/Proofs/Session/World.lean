import RowScope.Proofs.Session.Numbering
import RowScope.Proofs.Session.Turn

/-!
# Worlds

The world of a statement is all that there is for it: the statement itself, its
handle, the views of the handle by their numbers, and which connections are
open. There is more to a session than that, and another statement has another
world in it. But whatever is done with a statement happens within its world,
which means that it changes nothing outside and calls nobody else's cursor.

That a change stays within a world is composed of small changes of that kind.
Each of them is described completely by what becomes of the world and by its
calls. So if two sessions have the same world for a statement, and the same
small changes are made in both, they have the same world afterwards.

## Main definitions

* `World`, `Session.world?`: The world of a statement.
* `Session.Within`: A change within the world of a statement.
* `Session.Together`: Two sessions change in the same way within a world that
  they share.
* `Session.Alongside`: Two outcomes do, and say the same up to the identities of
  views.

## Theorems

* `within_called`, …, `within_onView`: The small changes; `Within.trans`: Their
  composition.
* `Within.outside`: What stays as it is outside.
* `Together.trans`, `Together.andThen`: One thing after the other.
-/

namespace RowScope

/-- All that there is for a statement. -/
structure World where
  statement : Statement
  handle : Handle
  /-- The views of the handle by their numbers. -/
  views : List View
  /-- The connections that are open. -/
  connected : ConnectionId → Bool

namespace Session

/-- The world of a statement. -/
def world? (s : Session) (a : StatementId) : Option World :=
  (s.statement? a).map fun p => ⟨p.1, p.2, s.viewsOf p.1.handle, s.isConnected⟩

/-- A change within the world of a statement, from one world to another one,
    with these calls. -/
structure Within (a : StatementId) (w : World) (s : Session) (w' : World) (s' : Session)
    (ks : List Call) : Prop where
  before : s.world? a = some w
  after : s'.world? a = some w'
  handle : w'.statement.handle = w.statement.handle
  /-- The views of the handle stay where they are, those to come included. -/
  placed : (s'.numbering w.statement.handle).placed = (s.numbering w.statement.handle).placed
  connected : s'.isConnected = s.isConnected
  calls : s'.calls = s.calls ++ ks
  own : ∀ k ∈ ks, k.handle? = some w.statement.handle
  statements : ∀ b : StatementId, b ≠ a → s'.statements[b]? = s.statements[b]?
  handles : ∀ h : HandleId, h ≠ w.statement.handle → s'.handles[h]? = s.handles[h]?
  views : ∀ (v : ViewId) (view : View), view.handle ≠ w.statement.handle →
    (s'.views[v]? = some view ↔ s.views[v]? = some view)

/-- What it takes for a statement to have a world: the statement and its handle
    are there, and the rest of the world is read off the session. -/
theorem world?_eq_some_iff (s : Session) (a : StatementId) (w : World) :
    s.world? a = some w ↔ s.statement? a = some (w.statement, w.handle) ∧
      s.viewsOf w.statement.handle = w.views ∧ s.isConnected = w.connected := by
  rw [world?, Option.map_eq_some_iff]
  constructor
  · rintro ⟨⟨st, handle⟩, hfound, rfl⟩
    exact ⟨hfound, rfl, rfl⟩
  · rintro ⟨hfound, hviews, hconnected⟩
    exact ⟨_, hfound, by rw [hviews, hconnected]⟩

section

variable {s s' s'' : Session} {a : StatementId} {w w' w'' : World} {ks ls : List Call}

theorem world_statement (hw : s.world? a = some w) :
    s.statement? a = some (w.statement, w.handle) :=
  ((world?_eq_some_iff s a w).mp hw).1

theorem world_found (hw : s.world? a = some w) :
    s.statements[a]? = some w.statement ∧ s.handles[w.statement.handle]? = some w.handle :=
  (statement?_eq_some_iff s a _ _).mp (world_statement hw)

theorem world_viewsOf (hw : s.world? a = some w) : s.viewsOf w.statement.handle = w.views :=
  ((world?_eq_some_iff s a w).mp hw).2.1

theorem world_connected (hw : s.world? a = some w) : s.isConnected = w.connected :=
  ((world?_eq_some_iff s a w).mp hw).2.2

/-- The view of a number is at the place that the numbering gives it, in each
    session its own. -/
theorem world_views (hw : s.world? a = some w) (k : Nat) :
    s.views[(s.numbering w.statement.handle).placed k]? = w.views[k]? := by
  rw [← viewsOf_getElem?, world_viewsOf hw]

/-- Whether a cursor refuses to be used is a question of the cursor and of its
    connection, both of which are in the world. -/
theorem world_refusal (hw : s.world? a = some w) :
    s.refusal? w.handle = w.handle.cursor.refusal? (w.connected w.handle.cursor.connection) := by
  rw [refusal?, world_connected hw]

/-- The next view that is made of any handle has the next number of the
    handle. -/
theorem world_next (hw : s.world? a = some w) :
    (s.numbering w.statement.handle).placed w.views.length = s.views.length := by
  rw [← world_viewsOf hw, viewsOf_length,
    Numbering.placed_of_le _ (Nat.le_refl _), Nat.sub_self, numbering_total]
  rfl

/-! ### Small changes -/

theorem Within.refl (hw : s.world? a = some w) : Within a w s w s [] :=
  ⟨hw, hw, rfl, rfl, rfl, (List.append_nil _).symm, fun _ hk => absurd hk List.not_mem_nil,
    fun _ _ => rfl, fun _ _ => rfl, fun _ _ _ => Iff.rfl⟩

/-- Two changes within one world, one after the other, are a change within it.
    The calls add up, and everything outside is kept twice. -/
theorem Within.trans (h : Within a w s w' s' ks) (h' : Within a w' s' w'' s'' ls) :
    Within a w s w'' s'' (ks ++ ls) := by
  -- The second change speaks of the handle in the world between the two, which
  -- is the same.
  have hplaced := h'.placed
  have hown := h'.own
  have hhandles := h'.handles
  have hviews := h'.views
  rw [h.handle] at hplaced hown hhandles hviews
  refine ⟨h.before, h'.after, h'.handle.trans h.handle, hplaced.trans h.placed,
    h'.connected.trans h.connected, ?_, ?_, ?_, ?_, ?_⟩
  · rw [h'.calls, h.calls, List.append_assoc]
  · intro k hk
    rcases List.mem_append.mp hk with hfirst | hsecond
    · exact h.own k hfirst
    · exact hown k hsecond
  · intro b hb
    exact (h'.statements b hb).trans (h.statements b hb)
  · intro g hg
    exact (hhandles g hg).trans (h.handles g hg)
  · intro v view hview
    exact (hviews v view hview).trans (h.views v view hview)

/-- A change that makes no view and gives none back stays within the world if it
    keeps to the statement and its handle. The numbers of views are kept because
    the list of views is. -/
theorem within_of_same_views (hw : s.world? a = some w) {st : Statement} {x : Handle}
    (found : s'.statement? a = some (st, x)) (handle : st.handle = w.statement.handle)
    (views : s'.views = s.views) (connected : s'.isConnected = s.isConnected)
    (calls : s'.calls = s.calls ++ ks) (own : ∀ k ∈ ks, k.handle? = some w.statement.handle)
    (statements : ∀ b : StatementId, b ≠ a → s'.statements[b]? = s.statements[b]?)
    (handles : ∀ h : HandleId, h ≠ w.statement.handle → s'.handles[h]? = s.handles[h]?) :
    Within a w s { w with statement := st, handle := x } s' ks := by
  have hviews := world_viewsOf hw
  have hconnected := connected.trans (world_connected hw)
  have hnumbering : ∀ h, s'.numbering h = s.numbering h := by
    intro h
    rw [numbering, numbering, views]
  refine ⟨hw, ?_, handle, by rw [hnumbering], connected, calls, own, statements, handles, ?_⟩
  · rw [world?_eq_some_iff]
    refine ⟨found, ?_, hconnected⟩
    rw [← hviews, viewsOf, viewsOf, hnumbering, views, handle]
  · intro v view _
    rw [views]

/-- A change without calls, in the statement and its handle only. -/
theorem within_silent (hw : s.world? a = some w) {st : Statement} {x : Handle}
    (found : s'.statement? a = some (st, x)) (handle : st.handle = w.statement.handle)
    (views : s'.views = s.views) (connected : s'.isConnected = s.isConnected)
    (calls : s'.calls = s.calls)
    (statements : ∀ b : StatementId, b ≠ a → s'.statements[b]? = s.statements[b]?)
    (handles : ∀ h : HandleId, h ≠ w.statement.handle → s'.handles[h]? = s.handles[h]?) :
    Within a w s { w with statement := st, handle := x } s' [] := by
  refine within_of_same_views hw found handle views connected ?_ ?_ statements handles
  · rw [List.append_nil, calls]
  · intro k hk
    exact absurd hk List.not_mem_nil

/-- A call on the cursor of the handle, which changes nothing but the record of
    calls. -/
theorem within_called (hw : s.world? a = some w) (k : Call)
    (own : k.handle? = some w.statement.handle) : Within a w s w (s.called k) [k] := by
  refine within_of_same_views hw (world_statement hw) rfl rfl rfl rfl ?_
    (fun _ _ => rfl) (fun _ _ => rfl)
  intro k' hk'
  rw [List.mem_singleton.mp hk', own]

theorem within_noted (hw : s.world? a = some w) (d : Diagnostic) :
    Within a w s w (s.noted d) [] :=
  within_silent hw (world_statement hw) rfl rfl rfl rfl (fun _ _ => rfl) (fun _ _ => rfl)

theorem within_asked (hw : s.world? a = some w) (r : Request) :
    Within a w s w (s.asked r) [] :=
  within_silent hw (world_statement hw) rfl rfl rfl rfl (fun _ _ => rfl) (fun _ _ => rfl)

theorem within_onHandle (hw : s.world? a = some w) (f : Handle → Handle) :
    Within a w s { w with handle := f w.handle } (s.onHandle w.statement.handle f) [] := by
  have hstands := (stands_self s a _ _ (world_statement hw)).onHandle f
  refine within_silent hw hstands.found rfl rfl rfl rfl (fun _ _ => rfl) ?_
  intro h hh
  exact List.getElem?_modify_ne f s.handles (Ne.symm hh)

theorem within_onStatement (hw : s.world? a = some w) (f : Statement → Statement)
    (kept : (f w.statement).handle = w.statement.handle) :
    Within a w s { w with statement := f w.statement } (s.onStatement a f) [] := by
  have hstands := (stands_self s a _ _ (world_statement hw)).onStatement f kept
  refine within_silent hw hstands.found kept rfl rfl rfl ?_ (fun _ _ => rfl)
  intro b hb
  exact List.getElem?_modify_ne f s.statements (Ne.symm hb)

/-- A change of a connection that does not open or close it. It is outside of
    the world, but no part of any other world either. -/
theorem within_onConnection (hw : s.world? a = some w) (c : ConnectionId)
    (f : Connection → Connection) (kept : ∀ x, (f x).isOpen = x.isOpen) :
    Within a w s w (s.onConnection c f) [] := by
  have hfound := world_statement hw
  have hstands := (stands_self s a _ _ hfound).onConnection c f kept
  exact within_silent hw hfound rfl rfl hstands.connected rfl (fun _ _ => rfl) (fun _ _ => rfl)

/-- A share that is given back, with the call if it was the last one. What
    becomes of the handle depends on its shares and on whether its connection is
    open, so it is a function of the world. -/
theorem within_release (hw : s.world? a = some w) :
    Within a w s
      { w with handle := w.handle.lessOne (w.connected w.handle.cursor.connection) }
      (s.release w.statement.handle)
      (if w.handle.isLast then [.finalize w.statement.handle] else []) := by
  rcases world_found hw with ⟨hst, hh⟩
  have hcalls := release_parts w.statement.handle s
  rw [hh, Option.any_some] at hcalls
  refine within_of_same_views hw ?_ rfl (release_views _ s) ?_ hcalls ?_ ?_ ?_
  · -- The world after is found, and the rest is the frame: connections, calls,
    -- other statements and other handles.
    rw [statement?_eq_some_iff, release_statements, release_handles, if_pos rfl, hh,
      Option.map_some, world_connected hw]
    exact ⟨hst, rfl⟩
  · funext c
    rw [isConnected, (release_surroundings w.statement.handle s).2, isConnected]
  · intro k hk
    by_cases hlast : w.handle.isLast = true
    · rw [if_pos hlast, List.mem_singleton] at hk
      rw [hk]
      rfl
    · rw [if_neg hlast] at hk
      exact absurd hk List.not_mem_nil
  · intro b _
    rw [release_statements]
  · intro h hne
    rw [release_handles, if_neg (Ne.symm hne)]

/-- A new view of the handle. Its identity depends on all views there are, and
    so it is not in the world; its number is the next one of the handle. -/
theorem within_newView (hw : s.world? a = some w) (i : Int) :
    Within a w s
      { w with
        handle := { w.handle with shares := w.handle.shares + 1 },
        views := w.views ++ [⟨w.statement.handle, i, true⟩] }
      (s.newView w.statement.handle i).2 [] := by
  rcases (world?_eq_some_iff s a w).mp hw with ⟨hfound, hviews, hconnected⟩
  have hstands := (stands_self s a _ _ hfound).onHandle
    fun x => { x with shares := x.shares + 1 }
  refine ⟨hw, ?_, rfl, placed_newView s _ i, rfl, (List.append_nil _).symm,
    fun _ hk => absurd hk List.not_mem_nil, fun _ _ => rfl, ?_, ?_⟩
  · rw [world?_eq_some_iff]
    exact ⟨hstands.found, by rw [viewsOf_newView, hviews], hconnected⟩
  · -- The share is counted in this handle only.
    intro h hne
    exact List.getElem?_modify_ne _ s.handles (Ne.symm hne)
  · -- A view of another handle is not the new one.
    intro v view hne
    constructor
    · intro hv
      rcases of_getElem?_concat s.views _ v view hv with ⟨-, heq⟩ | hold
      · exact absurd (congrArg View.handle heq) hne
      · exact hold
    · exact getElem?_concat_of_some s.views _ v view

/-- A change of one view of the handle, by its number. The number leads to the
    view by its place, where there is a view of this handle, or there is none
    and nothing is changed. -/
theorem within_onView (hw : s.world? a = some w) (k : Nat) (f : View → View)
    (kept : ∀ view, (f view).handle = view.handle) :
    Within a w s { w with views := w.views.modify k f }
      (s.onView ((s.numbering w.statement.handle).placed k) f) [] := by
  rcases (world?_eq_some_iff s a w).mp hw with ⟨hfound, hviews, hconnected⟩
  refine ⟨hw, ?_, rfl, by rw [numbering_onView s _ f kept], rfl, (List.append_nil _).symm,
    fun _ hk => absurd hk List.not_mem_nil, fun _ _ => rfl, fun _ _ => rfl, ?_⟩
  · rw [world?_eq_some_iff]
    exact ⟨hfound, by rw [viewsOf_onView s _ k f kept, hviews], hconnected⟩
  · intro v view hne
    show (s.views.modify _ f)[v]? = _ ↔ _
    rcases hv : s.views[v]? with _ | view'
    · rw [List.getElem?_modify, hv]
      exact Iff.rfl
    · rw [getElem?_modify_of_some s.views f _ v view' hv]
      by_cases heq : (s.numbering w.statement.handle).placed k = v
      · -- The changed view is one of the handle, before and after.
        have hplaced := world_views hw k
        rw [heq, hv, ← hviews] at hplaced
        have hhandle := viewsOf_handle s _ k view' hplaced.symm
        rw [if_pos heq, Option.some.injEq, Option.some.injEq]
        constructor
        · intro hc
          exact absurd (by rw [← hc, kept, hhandle]) hne
        · intro hc
          exact absurd (by rw [← hc, hhandle]) hne
      · rw [if_neg heq]

/-! ### Outside -/

/-- A change within one world leaves every other world as it is, and the views
    of its handle where they are. The statement and the handle are kept by
    definition. The views are those of a different handle, and of these none is
    made or changed, so they have the same numbers in the same places. -/
theorem Within.outside (h : Within a w s w' s' ks) (b : StatementId) (hb : b ≠ a) (x : World)
    (hx : s.world? b = some x) (apart : x.statement.handle ≠ w.statement.handle) :
    s'.world? b = some x ∧
      (s'.numbering x.statement.handle).ids = (s.numbering x.statement.handle).ids := by
  rcases (world?_eq_some_iff s b x).mp hx with ⟨-, hviews, hconnected⟩
  rcases world_found hx with ⟨hst, hh⟩
  have hsame : ∀ (v : ViewId) (view : View), view.handle = x.statement.handle →
      (s'.views[v]? = some view ↔ s.views[v]? = some view) := by
    intro v view hview
    exact h.views v view (by rw [hview]; exact apart)
  -- There may be more views than before, but none of them is a view of this
  -- handle.
  have hids : (s'.numbering x.statement.handle).ids = (s.numbering x.statement.handle).ids := by
    refine Numbering.ids_eq _ _ _ ?_
    intro v
    rw [List.getElem?_map, List.getElem?_map, Option.map_eq_some_iff, Option.map_eq_some_iff]
    constructor
    · rintro ⟨view, hv, hview⟩
      exact ⟨view, (hsame v view hview).mp hv, hview⟩
    · rintro ⟨view, hv, hview⟩
      exact ⟨view, (hsame v view hview).mpr hv, hview⟩
  refine ⟨?_, hids⟩
  rw [world?_eq_some_iff, statement?_eq_some_iff, h.statements b hb, h.handles _ apart, hst, hh]
  refine ⟨⟨rfl, rfl⟩, ?_, h.connected.trans hconnected⟩
  rw [← hviews, viewsOf, viewsOf, hids]
  refine List.filterMap_congr ?_
  intro v hv
  rcases (s.mem_numbering _ v).mp hv with ⟨view, hview, hhandle⟩
  rw [hview]
  exact (hsame v view hhandle).mpr hview

end

/-! ### Two sessions -/

/-- Two sessions change in the same way within a world that they share. -/
def Together (a : StatementId) (w : World) (s t : Session) (w' : World) (s' t' : Session) : Prop :=
  ∃ ks, Within a w s w' s' ks ∧ Within a w t w' t' ks

/-- Two outcomes change their sessions in the same way, and what they say is the
    same: one thing, said of views by their numbers. -/
structure Alongside {ρ σ : Type} (said : (Nat → ViewId) → σ → ρ) (a : StatementId) (w : World)
    (s t : Session) (o p : ρ × Session) : Prop where
  same : ∃ r, o.1 = said (s.numbering w.statement.handle).placed r ∧
    p.1 = said (t.numbering w.statement.handle).placed r
  together : ∃ w', Together a w s t w' o.2 p.2

/-- What is said without a word on views. -/
def plain {ρ : Type} (_ : Nat → ViewId) (r : ρ) : ρ := r

section

variable {a : StatementId} {w w' w'' : World} {s t s' t' s'' t'' : Session}

theorem Together.refl (hs : s.world? a = some w) (ht : t.world? a = some w) :
    Together a w s t w s t :=
  ⟨[], .refl hs, .refl ht⟩

/-- One and the same small change of both. What a small change does is
    determined by the world, calls included, so it is enough to show that it
    stays within the world, once and for every session. -/
theorem Together.of_within {ks : List Call} (hs : s.world? a = some w) (ht : t.world? a = some w)
    (f : Session → Session) (h : ∀ u, u.world? a = some w → Within a w u w' (f u) ks) :
    Together a w s t w' (f s) (f t) :=
  ⟨ks, h s hs, h t ht⟩

/-- Two sessions change together, and then again. The world between the two is
    the same for both, and its handle is the one from the beginning. -/
theorem Together.trans (h : Together a w s t w' s' t') (h' : Together a w' s' t' w'' s'' t'') :
    Together a w s t w'' s'' t'' := by
  rcases h with ⟨ks, left, right⟩
  rcases h' with ⟨ls, left', right'⟩
  exact ⟨ks ++ ls, left.trans left', right.trans right'⟩

theorem Together.left (h : Together a w s t w' s' t') : s'.world? a = some w' := by
  rcases h with ⟨_, left, _⟩
  exact left.after

theorem Together.right (h : Together a w s t w' s' t') : t'.world? a = some w' := by
  rcases h with ⟨_, _, right⟩
  exact right.after

theorem Together.handle (h : Together a w s t w' s' t') :
    w'.statement.handle = w.statement.handle := by
  rcases h with ⟨_, left, _⟩
  exact left.handle

theorem Together.placed (h : Together a w s t w' s' t') :
    (s'.numbering w.statement.handle).placed = (s.numbering w.statement.handle).placed ∧
      (t'.numbering w.statement.handle).placed = (t.numbering w.statement.handle).placed := by
  rcases h with ⟨_, left, right⟩
  exact ⟨left.placed, right.placed⟩

variable {ρ σ : Type} {said : (Nat → ViewId) → σ → ρ} {o p : ρ × Session}

theorem Alongside.of_eq {r r' : ρ} (same : r = r') (h : Together a w s t w' s' t') :
    Alongside plain a w s t (r, s') (r', t') :=
  ⟨⟨r, rfl, same.symm⟩, w', h⟩

/-- What was said of both, and where they have come. This is how a later part of
    an operation gets at the two sessions that an earlier part has led to. -/
theorem Alongside.elim (h : Alongside said a w s t o p) :
    ∃ r w' s' t', o = (said (s.numbering w.statement.handle).placed r, s') ∧
      p = (said (t.numbering w.statement.handle).placed r, t') ∧ Together a w s t w' s' t' := by
  rcases o with ⟨l, s'⟩
  rcases p with ⟨r, t'⟩
  rcases h with ⟨⟨q, hl, hr⟩, w', h⟩
  exact ⟨q, w', s', t', by rw [← hl], by rw [← hr], h⟩

theorem Alongside.elim_plain {o p : ρ × Session} (h : Alongside plain a w s t o p) :
    ∃ r w' s' t', o = (r, s') ∧ p = (r, t') ∧ Together a w s t w' s' t' :=
  h.elim

/-- One thing after the other, if only the second one says something. The
    numbers are placed as they were in the beginning, so what is said later can
    be told by the sessions of then. -/
theorem Together.andThen (h : Together a w s t w' s' t') (next : Alongside said a w' s' t' o p) :
    Alongside said a w s t o p := by
  rcases next with ⟨⟨r, hl, hr⟩, w'', h'⟩
  rw [h.handle, h.placed.1] at hl
  rw [h.handle, h.placed.2] at hr
  exact ⟨⟨r, hl, hr⟩, w'', h.trans h'⟩

end

end Session

end RowScope
