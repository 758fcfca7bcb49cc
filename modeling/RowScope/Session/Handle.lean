import RowScope.Column.Basic
import RowScope.Session.Cursor

/-!
# Handles and Shares

A handle counts its shares. Taking one more always counts, giving one back
counts only as long as there is something to give back: with the last share the
handle is *finalized*, which drops its row and closes its cursor, and from then
on returned shares are ignored. That the cursor refuses to be closed is no
failure of the handle, since the engine frees it together with the connection.

Reading a row directly is not checked in any way. An index may also count from
the end of the row or of the result, as `-1` for the last column.

## Main definitions

* `Session.share`, `Session.release`: Taking and giving back a share.
* `Session.finalize`: What happens with the last share.
* `fromEnd?`: An element by an index that may count from the end.
* `Handle.cellAt`, `Handle.nameAt`: Reading without checks.
* `Handle.described`: A handle as messages show it.
-/

namespace RowScope

/-- An element by its index; negative ones count from the end. -/
def fromEnd? {α : Type} (xs : List α) (index : Int) : Option α :=
  let i := if index < 0 then index + xs.length else index
  if i < 0 then none else xs[i.toNat]?

namespace Handle

/-- The cell at an index of the current row. -/
def cellAt (h : Handle) (index : Int) : Except Fault Cell :=
  match h.row with
  | none => .error .rowMissing
  | some row =>
    match fromEnd? row index with
    | some c => .ok c
    | none => .error .beyondRow

/-- The name at an index of the result. -/
def nameAt (h : Handle) (index : Int) : Except Fault Text :=
  match h.cursor.columns with
  | none => .error .resultMissing
  | some names =>
    match fromEnd? names index with
    | some name => .ok name
    | none => .error .beyondResult

/-- A column as a view with this identity finds it. -/
def column (h : Handle) (id : ViewId) (index : Int) : Column where
  id := id
  index := index
  hasRow := h.hasRow
  cell := h.cellAt index
  name := h.nameAt index

/-- A handle as messages show it. -/
def described (h : Handle) : Text :=
  Text.ofString "<StatementHandle " ++ h.sql.shown ++
    (if h.finalized then Text.ofString " finalized>"
     else Text.ofString " refs=" ++ Text.ofNat h.shares ++ Text.ofString ">")

end Handle

namespace Session

/-- Takes one more share. -/
def share (h : HandleId) (s : Session) : Session :=
  s.onHandle h fun handle => { handle with shares := handle.shares + 1 }

/-- Finalizes a handle that has no shares left. -/
def finalize (h : HandleId) (handle : Handle) (s : Session) : Session :=
  let s := s.onHandle h fun handle =>
    { handle with shares := 0, finalized := true, row := none }
  let s := s.noted (.finalizing handle.sql)
  match s.closeCursor h handle.cursor.connection with
  | (.ok (), s) => s
  | (.error e, s) => s.noted (.cursorUnusable e.message)

/-- Gives back one share. -/
def release (h : HandleId) (s : Session) : Session :=
  match s.handles[h]? with
  | none => s
  | some handle =>
    if handle.finalized then s.noted (.releaseIgnored handle.sql)
    else if handle.shares ≤ 1 then s.finalize h handle
    else s.onHandle h fun handle => { handle with shares := handle.shares - 1 }

/-- Sets the current row of a handle. -/
def setRow (h : HandleId) (row : Option Row) (s : Session) : Session :=
  s.onHandle h fun handle => { handle with row := row }

/-- Makes a handle, with one share, on a connection. -/
def newHandle (connection : ConnectionId) (sql : Sql) (s : Session) : HandleId × Session :=
  (s.handles.length, { s with handles := s.handles ++ [Handle.fresh connection sql] })

end Session

end RowScope
