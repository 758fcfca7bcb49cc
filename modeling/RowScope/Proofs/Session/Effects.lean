import RowScope.Proofs.Session.Admission
import RowScope.Proofs.Session.Calls

/-!
# Effects of Taking and Giving Back Shares

What views cost and what giving them back is worth, exactly. The frame of a
command says what stays as it is. Here it is said what the rest becomes, for the
few operations that count shares, so that two sessions in which the same is done
can be compared.

A handle that loses a share goes on counting, or ends. Which of the two it is
depends on the handle, and how it ends depends on whether its connection is
open; nothing else matters.

## Main definitions

* `View.aim`: What a view looks at.
* `Handle.lessOne`, `Handle.isLast`: A handle with one share less, and whether
  that is its end.

## Theorems

* `Leads.views_same`: Most moves leave all views alone.
* `newViews_eq`: Several new views of one handle.
* `release_handles`, `release_parts`: One share less for one handle, and the
  call if it ends.
* `releaseViews_aims`, `releaseViews_counted`: Giving back several views turns
  none of them to something else, and does not end a handle that has more shares
  than that.
-/

namespace RowScope

/-- What a view looks at, whether or not it holds a share. -/
def View.aim (view : View) : HandleId × Int := (view.handle, view.index)

/-- A handle with one share less, given whether its connection is open. -/
def Handle.lessOne (connected : Bool) (h : Handle) : Handle :=
  if h.finalized then h
  else if h.shares ≤ 1 then
    { h with
      shares := 0, finalized := true, row := none,
      cursor := { h.cursor with closed := h.cursor.closed || connected } }
  else { h with shares := h.shares - 1 }

/-- One share less is the end of a handle. -/
def Handle.isLast (h : Handle) : Bool := !h.finalized && decide (h.shares ≤ 1)

/-- A touch that neither makes nor gives back a view. -/
def Touch.sparesViews : Touch → Prop
  | view _ => False
  | bareView _ => False
  | release _ => False
  | _ => True

/-- A move that neither makes nor gives back a view leaves all views alone. -/
theorem Move.views_same (a : Touch) (s t : Session) (m : Move a s t) (ha : a.sparesViews) :
    t.views = s.views := by
  cases m with
  | aside _ _ views _ => exact views
  | view _ _ _ => exact False.elim ha
  | bareView _ _ => exact False.elim ha
  | release _ => exact False.elim ha
  | close id => exact Session.closeStatement_views id s
  | giveBack h => exact Session.release_views h s
  | _ => rfl

namespace Session

theorem Leads.views_same {P : Touch → Prop} {s t : Session} (hl : s.Leads P t)
    (hP : ∀ a, P a → a.sparesViews) : t.views = s.views := by
  refine hl.preserves (fun u => u.views = s.views) ?_ rfl
  intro a u w ha m hu
  exact (m.views_same a u w (hP a ha)).trans hu

/-- The views of a step are the views before it. -/
theorem step_views (e : Engine) (id : StatementId) (s : Session) :
    (s.step e id).2.views = s.views := by
  refine (step_leads e id s).views_same ?_
  intro a ha
  cases a with
  | view _ => exact False.elim ha
  | bareView _ => exact False.elim ha
  | release _ => exact False.elim ha
  | _ => trivial

theorem plainly_made {α : Type} (value : α → Value) (o : Outcome α) :
    (plainly value o).1.made = none := by
  rcases o with ⟨f | a, s⟩
  · rfl
  · rfl

/-! ### Taking shares -/

/-- Several new views of one handle have the next identities, in order, and take
    a share each. -/
theorem newViews_eq (h : HandleId) (is : List Nat) (s : Session) :
    s.newViews h is = (List.range' s.views.length is.length,
      { s.onHandle h (fun x => { x with shares := x.shares + is.length }) with
        views := s.views ++ is.map fun i => ⟨h, i, true⟩ }) := by
  induction is generalizing s with
  | nil =>
      have hsame : s.handles.modify h (fun x => { x with shares := x.shares + 0 }) = s.handles :=
        modify_eq_self_of s.handles _ h (fun _ _ => rfl)
      simp only [newViews, onHandle, List.length_nil, List.range'_zero, List.map_nil,
        List.append_nil, hsame]
  | cons i rest ih =>
      have hcount : (fun x : Handle => { x with shares := x.shares + 1 + rest.length }) =
          fun x => { x with shares := x.shares + (rest.length + 1) } := by
        funext x
        rw [Nat.add_assoc, Nat.add_comm 1]
      simp only [newViews, newView, ih, share, onHandle, List.modify_modify_eq, Function.comp_def,
        List.length_append, List.length_cons, List.length_nil, Nat.zero_add, List.range'_succ,
        List.map_cons, List.append_assoc, List.singleton_append, hcount]

/-! ### Giving shares back -/

/-- What a release does to the handles: one of them loses a share, and no other
    one changes. It is said of each handle by itself, so that two sessions can
    be compared in which other handles differ. -/
theorem release_handles (h g : HandleId) (s : Session) :
    (s.release h).handles[g]? =
      if h = g then s.handles[g]?.map fun x => x.lessOne (s.isConnected x.cursor.connection)
      else s.handles[g]? := by
  rcases hx : s.handles[h]? with _ | x
  · rw [release_missing h s hx]
    by_cases heq : h = g
    · rw [if_pos heq, ← heq, hx, Option.map_none]
    · rw [if_neg heq]
  · -- A handle that is changed in one place.
    have changed : ∀ f : Handle → Handle, (s.release h).handles = s.handles.modify h f →
        f x = x.lessOne (s.isConnected x.cursor.connection) →
        (s.release h).handles[g]? =
          if h = g then s.handles[g]?.map fun x => x.lessOne (s.isConnected x.cursor.connection)
          else s.handles[g]? := by
      intro f hf hfx
      rw [hf]
      by_cases heq : h = g
      · rw [if_pos heq, ← heq, hx, getElem?_modify_of_some _ f h h x hx, if_pos rfl,
          Option.map_some, hfx]
      · rw [if_neg heq, List.getElem?_modify_ne f _ heq]
    -- Ignored, the end with or without an open connection, or one share less.
    rcases hfin : x.finalized with _ | _
    · by_cases hle : x.shares ≤ 1
      · rcases hc : s.isConnected x.cursor.connection with _ | _
        · refine changed (fun x => { x with shares := 0, finalized := true, row := none }) ?_ ?_
          · unfold isConnected at hc
            simp only [release, hx, hfin, hle, finalize, closeCursor, isConnected, called, noted,
              onHandle, hc, Bool.false_eq_true, if_false, if_true]
          · simp only [Handle.lessOne, hfin, hle, hc, Bool.false_eq_true, if_false, if_true,
              Bool.or_false]
        · refine changed (fun x => { x with
            shares := 0, finalized := true, row := none,
            cursor := { x.cursor with closed := true } }) ?_ ?_
          · unfold isConnected at hc
            simp only [release, hx, hfin, hle, finalize, closeCursor, isConnected, called, noted,
              onHandle, hc, Bool.false_eq_true, if_false, if_true, List.modify_modify_eq]
            rfl
          · simp only [Handle.lessOne, hfin, hle, hc, Bool.false_eq_true, if_false, if_true,
              Bool.or_true]
      · refine changed (fun x => { x with shares := x.shares - 1 }) ?_ ?_
        · simp only [release, hx, hfin, hle, onHandle, Bool.false_eq_true, if_false]
        · simp only [Handle.lessOne, hfin, hle, Bool.false_eq_true, if_false]
    · refine changed id ?_ ?_
      · rw [modify_eq_self_of s.handles id h (fun _ _ => rfl)]
        simp only [release, hx, hfin, if_true, noted]
      · simp only [Handle.lessOne, hfin, if_true, id_eq]

/-- The one call that a release makes is that of the last share. -/
theorem release_parts (h : HandleId) (s : Session) :
    (s.release h).calls =
      s.calls ++ if s.handles[h]?.any Handle.isLast then [.finalize h] else [] := by
  rcases hx : s.handles[h]? with _ | x
  · rw [release_missing h s hx]
    exact (List.append_nil s.calls).symm
  · rw [Option.any_some]
    rcases release_cases h s x hx with ⟨hfin, -, hc⟩ | ⟨hfin, hlt, -, hc⟩ | ⟨hfin, hle, hc, -⟩
    · simp only [hc, Handle.isLast, hfin, Bool.not_true, Bool.false_and, Bool.false_eq_true,
        if_false, List.append_nil]
    · have hmore : ¬ x.shares ≤ 1 := by omega
      simp only [hc, Handle.isLast, hfin, hmore, decide_false, Bool.and_false, Bool.false_eq_true,
        if_false, List.append_nil]
    · simp only [hc, Handle.isLast, hfin, hle, decide_true, Bool.not_false, Bool.and_true, if_true]

theorem releaseViews_aims (vs : List ViewId) (s : Session) :
    (s.releaseViews vs).views.map View.aim = s.views.map View.aim := by
  induction vs generalizing s with
  | nil => rfl
  | cons v rest ih =>
      have hfirst : (s.releaseView v).views.map View.aim = s.views.map View.aim := by
        rw [releaseView_views]
        exact map_modify_same View.aim (fun view => { view with holding := false })
          (fun _ => rfl) s.views v
      exact (ih (s.releaseView v)).trans hfirst

theorem releaseViews_statements (vs : List ViewId) (s : Session) :
    (s.releaseViews vs).statements = s.statements := by
  induction vs generalizing s with
  | nil => rfl
  | cons v rest ih => exact (ih (s.releaseView v)).trans (releaseView_statements v s)

/-- One view less is at most one share less, and not the last one if there are
    more. -/
theorem releaseView_counted (v : ViewId) (s : Session) (h : HandleId) (x : Handle)
    (hh : s.handles[h]? = some x) (live : x.finalized = false) (enough : 1 < x.shares) :
    ∃ shares, (s.releaseView v).handles[h]? = some { x with shares := shares } ∧
      x.shares ≤ shares + 1 := by
  rcases releaseView_cases v s with ⟨heq, -⟩ | ⟨view, -, -, heq⟩
  · rw [heq]
    exact ⟨x.shares, hh, Nat.le_succ _⟩
  · have hsame : (s.onView v fun view => { view with holding := false }).handles[h]? =
        some x := hh
    rw [heq, release_handles, hsame, Option.map_some]
    by_cases hview : view.handle = h
    · -- The handle is the one of the view, and has a share to spare.
      have hmore : ¬ x.shares ≤ 1 := by omega
      refine ⟨x.shares - 1, ?_, by omega⟩
      simp only [hview, if_true, Handle.lessOne, live, hmore, Bool.false_eq_true, if_false]
    · rw [if_neg hview]
      exact ⟨x.shares, rfl, Nat.le_succ _⟩

/-- Giving back several views does not end a handle that has more shares than
    that. -/
theorem releaseViews_counted (vs : List ViewId) (s : Session) (h : HandleId) (x : Handle)
    (hh : s.handles[h]? = some x) (live : x.finalized = false) (enough : vs.length < x.shares) :
    ∃ shares, (s.releaseViews vs).handles[h]? = some { x with shares := shares } ∧
      x.shares ≤ shares + vs.length := by
  induction vs generalizing s x with
  | nil => exact ⟨x.shares, hh, Nat.le_refl _⟩
  | cons v rest ih =>
      rw [List.length_cons] at enough
      rcases releaseView_counted v s h x hh live (by omega) with ⟨shares, hfirst, hleft⟩
      rcases ih (s.releaseView v) _ hfirst live (by simp only []; omega) with
        ⟨shares', hrest, hleft'⟩
      refine ⟨shares', hrest, ?_⟩
      simp only [List.length_cons] at hleft' ⊢
      omega

end Session

end RowScope
