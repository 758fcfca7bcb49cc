import RowScope.Session.Handle

/-!
# Views

A view of one column takes a share of its handle when it is made and gives it
back once, when it is released or no longer used. It looks at the handle's row
whenever it is read, so it stays readable for as long as the row is current.

## Main definitions

* `Session.newView`: Making a view.
* `Session.releaseView`: Giving back its share, once.
* `Session.column?`: What a view finds.
-/

namespace RowScope

namespace Session

/-- Makes a view of a column, without checks. -/
def newView (h : HandleId) (index : Int) (s : Session) : ViewId × Session :=
  (s.views.length, { s.share h with views := s.views ++ [⟨h, index, true⟩] })

/-- Makes views of several columns, in order. -/
def newViews (h : HandleId) : List Nat → Session → List ViewId × Session
  | [], s => ([], s)
  | i :: rest, s =>
    let (id, s) := s.newView h i
    let (ids, s) := newViews h rest s
    (id :: ids, s)

/-- Gives back the share of a view, if it was not given back yet. -/
def releaseView (v : ViewId) (s : Session) : Session :=
  match s.views[v]? with
  | none => s
  | some view =>
    if view.holding then
      (s.onView v fun view => { view with holding := false }).release view.handle
    else s

/-- Gives back the shares of several views. -/
def releaseViews (vs : List ViewId) (s : Session) : Session :=
  vs.foldl (fun s v => s.releaseView v) s

/-- What a view finds. -/
def column? (s : Session) (v : ViewId) : Option Column := do
  let view ← s.views[v]?
  let handle ← s.handles[view.handle]?
  return handle.column v view.index

end Session

end RowScope
