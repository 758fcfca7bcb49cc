import Mathlib.Data.List.Basic
import RowScope.Proofs.Session.Effects

/-!
# Numbered Views

The identity of a view says how many views there were before it, of all handles.
So it depends on what is done with other handles, and is no good for telling
what is done with one. For that a view has a *number*, which says how many views
of its own handle there were before it.

A number is meant for a view also if there is no such view yet. As long as no
view of another handle is made it is then the number of the view that will be
made. So numbers are placed one to one in every session, and making a view of
the handle itself does not change the placement.

## Main definitions

* `Numbering`: The views of one handle among all views.
* `Numbering.placed`, `Numbering.number`: The view of a number, and the number
  of a view.
* `Session.numbering`: The numbering of a session.
* `Session.viewsOf`: The views of a handle by their numbers.

## Theorems

* `number_placed`, `placed_injective`: Numbers are placed one to one.
* `placed_concat`: A new view of the handle is placed where its number was
  placed before.
* `ids_concat`, `ids_eq`: Views of other handles do not matter.
* `viewsOf_getElem?`: The view of a number.
-/

namespace RowScope

/-- The views of one handle among all views. -/
structure Numbering where
  /-- The views of the handle, in the order of their making. -/
  ids : List ViewId
  /-- How many views there are of all handles. -/
  total : Nat
  nodup : ids.Nodup
  below : ∀ v ∈ ids, v < total

namespace Numbering

/-- The view of a number; one that is not there yet is counted from the next one
    on. -/
def placed (n : Numbering) (k : Nat) : ViewId :=
  (n.ids[k]?).getD (n.total + (k - n.ids.length))

/-- The number of a view. -/
def number (n : Numbering) (v : ViewId) : Nat :=
  if v < n.total then n.ids.idxOf v else n.ids.length + (v - n.total)

theorem placed_of_lt (n : Numbering) {k : Nat} (hk : k < n.ids.length) : n.placed k = n.ids[k] := by
  rw [placed, List.getElem?_eq_getElem hk, Option.getD_some]

theorem placed_of_le (n : Numbering) {k : Nat} (hk : n.ids.length ≤ k) :
    n.placed k = n.total + (k - n.ids.length) := by
  rw [placed, List.getElem?_eq_none hk, Option.getD_none]

/-- The number of the view that a number is placed at is this number, whether
    the view is there or still to come. -/
theorem number_placed (n : Numbering) (k : Nat) : n.number (n.placed k) = k := by
  unfold number
  -- The view is there, or it is counted from the next one on.
  by_cases hk : k < n.ids.length
  · rw [placed_of_lt n hk, if_pos (n.below _ (List.getElem_mem hk))]
    exact n.nodup.idxOf_getElem k hk
  · have hplaced := placed_of_le n (Nat.le_of_not_lt hk)
    rw [hplaced, if_neg (Nat.not_lt.mpr (Nat.le_add_right _ _)), Nat.add_sub_cancel_left]
    omega

/-- Numbers are placed one to one, since a number can be told from its place. -/
theorem placed_injective (n : Numbering) {j k : Nat} (h : n.placed j = n.placed k) : j = k := by
  rw [← n.number_placed j, h, n.number_placed]

/-- The numbering of the views of a handle, given the handles of all views. -/
def ofHandles (handles : List HandleId) (h : HandleId) : Numbering where
  ids := (List.range handles.length).filter fun v => handles[v]? == some h
  total := handles.length
  nodup := List.nodup_range.filter _
  below _ hv := List.mem_range.mp (List.mem_filter.mp hv).1

theorem mem_ids (handles : List HandleId) (h : HandleId) (v : ViewId) :
    v ∈ (ofHandles handles h).ids ↔ handles[v]? = some h := by
  simp only [ofHandles, List.mem_filter, List.mem_range, beq_iff_eq]
  refine ⟨fun hv => hv.2, fun hv => ⟨?_, hv⟩⟩
  exact (List.getElem?_eq_some_iff.mp hv).1

/-- One view more, of whichever handle: it has the next place, and it is
    numbered if it is a view of this one. -/
theorem ids_concat (handles : List HandleId) (g h : HandleId) :
    (ofHandles (handles ++ [g]) h).ids =
      (ofHandles handles h).ids ++ if g = h then [handles.length] else [] := by
  -- Nothing changes below the new view.
  have hold : (List.range handles.length).filter (fun v => (handles ++ [g])[v]? == some h) =
      (List.range handles.length).filter fun v => handles[v]? == some h := by
    refine List.filter_congr ?_
    intro v hv
    rw [List.getElem?_append_left (List.mem_range.mp hv)]
  simp only [ofHandles, List.length_append, List.length_singleton, List.range_succ,
    List.filter_append, hold, List.filter_cons, List.filter_nil, List.getElem?_concat_length,
    Option.some_beq_some, beq_iff_eq]

/-- A new view of the handle is placed where its number was placed before. So is
    every other number: those of earlier views keep their places, and those to
    come are counted from one place further on, but from one number further on
    as well. -/
theorem placed_concat (handles : List HandleId) (h : HandleId) :
    (ofHandles (handles ++ [h]) h).placed = (ofHandles handles h).placed := by
  have hids := ids_concat handles h h
  rw [if_pos rfl] at hids
  have htotal : (ofHandles (handles ++ [h]) h).total = handles.length + 1 := List.length_append
  have hlength : (ofHandles (handles ++ [h]) h).ids.length =
      (ofHandles handles h).ids.length + 1 := by
    rw [hids, List.length_append, List.length_singleton]
  funext k
  -- An earlier view, the new one, or one that is still to come.
  rcases Nat.lt_trichotomy k (ofHandles handles h).ids.length with hlt | heq | hgt
  · rw [placed, placed, hids, List.getElem?_append_left hlt, List.getElem?_eq_getElem hlt]
    rfl
  · rw [placed, hids, heq, List.getElem?_concat_length, placed_of_le _ (Nat.le_refl _),
      Nat.sub_self]
    rfl
  · rw [placed_of_le _ (by omega), placed_of_le _ (by omega), htotal, hlength]
    show _ = handles.length + _
    omega

/-- The views of a handle are what they are in whatever order the others come,
    and however many they are. -/
theorem ids_eq (handles handles' : List HandleId) (h : HandleId)
    (same : ∀ v : ViewId, handles[v]? = some h ↔ handles'[v]? = some h) :
    (ofHandles handles h).ids = (ofHandles handles' h).ids := by
  -- Both lists are sorted, so it is enough that they have the same members.
  refine @List.Perm.eq_of_pairwise _ (· < ·) _ _ ?_ ?_ ?_ ?_
  · intro v w _ _ hvw hwv
    exact absurd hvw (Nat.lt_asymm hwv)
  · exact List.pairwise_lt_range.filter _
  · exact List.pairwise_lt_range.filter _
  · refine (List.perm_ext_iff_of_nodup (ofHandles handles h).nodup
      (ofHandles handles' h).nodup).mpr ?_
    intro v
    rw [mem_ids, mem_ids, same]

end Numbering

namespace Session

/-- The numbering of the views of a handle. -/
def numbering (s : Session) (h : HandleId) : Numbering := .ofHandles (s.views.map View.handle) h

/-- The views of a handle by their numbers. -/
def viewsOf (s : Session) (h : HandleId) : List View :=
  (s.numbering h).ids.filterMap fun v => s.views[v]?

theorem mem_numbering (s : Session) (h : HandleId) (v : ViewId) :
    v ∈ (s.numbering h).ids ↔ ∃ view, s.views[v]? = some view ∧ view.handle = h := by
  rw [numbering, Numbering.mem_ids, List.getElem?_map, Option.map_eq_some_iff]

theorem numbering_total (s : Session) (h : HandleId) : (s.numbering h).total = s.views.length :=
  List.length_map _

end Session

/-- Where every element is mapped to something, none is left out, so places are
    kept. -/
theorem getElem?_filterMap_of_isSome {α β : Type} (f : α → Option β) (l : List α)
    (hf : ∀ x ∈ l, (f x).isSome = true) (k : Nat) : (l.filterMap f)[k]? = l[k]?.bind f := by
  induction l generalizing k with
  | nil => rfl
  | cons x rest ih =>
      rcases Option.isSome_iff_exists.mp (hf x List.mem_cons_self) with ⟨y, hy⟩
      rw [List.filterMap_cons_some hy]
      cases k with
      | zero => exact hy.symm
      | succ k => exact ih (fun z hz => hf z (List.mem_cons_of_mem x hz)) k

namespace Session

theorem viewsOf_length (s : Session) (h : HandleId) :
    (s.viewsOf h).length = (s.numbering h).ids.length := by
  refine List.filterMap_length_eq_length.mpr ?_
  intro v hv
  rcases (s.mem_numbering h v).mp hv with ⟨view, hview, -⟩
  rw [hview]
  rfl

/-- The view of a number is the one that is placed there. This also holds beyond
    the last number, where there is no view on either side. -/
theorem viewsOf_getElem? (s : Session) (h : HandleId) (k : Nat) :
    (s.viewsOf h)[k]? = s.views[(s.numbering h).placed k]? := by
  have hsome : ∀ v ∈ (s.numbering h).ids, (s.views[v]?).isSome = true := by
    intro v hv
    rcases (s.mem_numbering h v).mp hv with ⟨view, hview, -⟩
    rw [hview]
    rfl
  rw [viewsOf, getElem?_filterMap_of_isSome _ _ hsome]
  -- Beyond the last number there is no view, and none where it would be placed.
  by_cases hk : k < (s.numbering h).ids.length
  · rw [Numbering.placed_of_lt _ hk, List.getElem?_eq_getElem hk, Option.bind_some]
  · rw [Numbering.placed_of_le _ (Nat.le_of_not_lt hk), List.getElem?_eq_none (Nat.le_of_not_lt hk),
      List.getElem?_eq_none (by rw [numbering_total]; exact Nat.le_add_right _ _)]
    rfl

theorem viewsOf_handle (s : Session) (h : HandleId) (k : Nat) (view : View)
    (hk : (s.viewsOf h)[k]? = some view) : view.handle = h := by
  have hmem := List.mem_of_getElem? hk
  rw [viewsOf, List.mem_filterMap] at hmem
  rcases hmem with ⟨v, hv, hview⟩
  rcases (s.mem_numbering h v).mp hv with ⟨view', hview', hhandle⟩
  rw [hview, Option.some.injEq] at hview'
  rw [hview']
  exact hhandle

/-- A new view of the handle is the last one of its views, as it has the last
    place. -/
theorem viewsOf_newView (s : Session) (h : HandleId) (i : Int) :
    (s.newView h i).2.viewsOf h = s.viewsOf h ++ [⟨h, i, true⟩] := by
  have hviews : (s.newView h i).2.views = s.views ++ [⟨h, i, true⟩] := rfl
  have hids : ((s.newView h i).2.numbering h).ids = (s.numbering h).ids ++ [s.views.length] := by
    rw [numbering, hviews, List.map_append, List.map_singleton, Numbering.ids_concat, if_pos rfl,
      List.length_map]
    rfl
  -- The earlier views are found where they were, and the new one behind all
  -- others.
  have hold : (s.numbering h).ids.filterMap
      (fun v => (s.views ++ [(⟨h, i, true⟩ : View)])[v]?) = s.viewsOf h := by
    refine List.filterMap_congr ?_
    intro v hv
    have hlt := (s.numbering h).below v hv
    rw [numbering_total] at hlt
    exact List.getElem?_append_left hlt
  have hnew : [s.views.length].filterMap
      (fun v => (s.views ++ [(⟨h, i, true⟩ : View)])[v]?) = [⟨h, i, true⟩] := by
    rw [List.filterMap_cons_some (b := (⟨h, i, true⟩ : View)) List.getElem?_concat_length,
      List.filterMap_nil]
  rw [viewsOf, hids, List.filterMap_append, hviews, hold, hnew]

/-- Making a view of the handle does not change the placement, so it does not
    matter whether numbers are replaced before or after it. -/
theorem placed_newView (s : Session) (h : HandleId) (i : Int) :
    ((s.newView h i).2.numbering h).placed = (s.numbering h).placed := by
  have hviews : (s.newView h i).2.views = s.views ++ [⟨h, i, true⟩] := rfl
  rw [numbering, hviews, List.map_append, List.map_singleton]
  exact Numbering.placed_concat _ h

/-- A change of a view that keeps its handle. -/
theorem numbering_onView (s : Session) (v : ViewId) (f : View → View)
    (kept : ∀ view, (f view).handle = view.handle) (h : HandleId) :
    (s.onView v f).numbering h = s.numbering h :=
  congrArg (Numbering.ofHandles · h) (map_modify_same View.handle f kept s.views v)

/-- To change the view at the place of a number is to change the view of this
    number. -/
theorem viewsOf_onView (s : Session) (h : HandleId) (k : Nat) (f : View → View)
    (kept : ∀ view, (f view).handle = view.handle) :
    (s.onView ((s.numbering h).placed k) f).viewsOf h = (s.viewsOf h).modify k f := by
  refine List.ext_getElem? ?_
  intro j
  have hviews : (s.onView ((s.numbering h).placed k) f).views =
      s.views.modify ((s.numbering h).placed k) f := rfl
  rw [viewsOf_getElem?, numbering_onView s _ f kept, hviews, List.getElem?_modify,
    List.getElem?_modify, viewsOf_getElem?]
  by_cases heq : k = j
  · simp only [heq, if_true]
  · have hne : (s.numbering h).placed k ≠ (s.numbering h).placed j := by
      intro hc
      exact heq (Numbering.placed_injective _ hc)
    simp only [heq, hne, if_false]

end Session

end RowScope
