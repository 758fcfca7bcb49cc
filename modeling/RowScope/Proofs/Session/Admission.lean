import RowScope.Proofs.Column.Reading
import RowScope.Proofs.Session.Fit

/-!
# Admission

Before a column of the current row is read its index is checked, and the check
is made against the number of columns in the result. Since rows fit their
results that is the width of the row itself, so an index is admitted exactly if
the row has a cell there. A record is admitted by its width in the same way.

What is not admitted leaves no trace: the session is the very same afterwards,
without one call more, and the refusal would be the same for every other row as
wide. What is admitted finds its cell, at once and for as long as the view may
be used.

## Main definitions

* `admitted`: The cell at an index of a row, or why there is none.
* `admittedWidth`: The number of columns for a record, or why it cannot be made.
* `Session.Admits`: Everything that reads columns by index goes by these two.

## Theorems

* `admitted_blind`, `admittedWidth_blind`: A refusal depends on a row by its
  width only.
* `Handle.cellAt_admitted`: An admitted index finds its cell.
* `getColumn_index`, `isColumnNull_index`: The readings of one column.
* `newViews_columns`: The columns that the views of a record find.
* `admits_of_wide`: A statement whose rows are as wide as its result admits
  exactly.
* `admitted_stable`: An admitted view finds its cell for as long as it may be
  used.
* `reachable_admits`: Every statement does, if the engine's rows are as wide as
  their results.
-/

namespace RowScope

theorem place_lt {r : Row} {i : Int} (h : 0 ≤ i ∧ i < r.length) : i.toNat < r.length := by
  omega

/-- The cell at an index of a row, or why there is none. -/
def admitted (row : Option Row) (i : Int) : Except Fault Cell :=
  match row with
  | none => .error (.access .noCurrentRow)
  | some r =>
    if h : 0 ≤ i ∧ i < r.length then .ok (r.get ⟨i.toNat, place_lt h⟩)
    else .error (.access (.columnIndex i r.length))

/-- The number of columns for a record of a row, or why it cannot be made. -/
def admittedWidth (row : Option Row) (count : Int) : Except Fault Nat :=
  if count < 0 then .error (.negativeWidth count)
  else
    match row with
    | none => .error (.access .noCurrentRow)
    | some r =>
      if count > r.length then .error (.access (.columnIndex (count - 1) r.length))
      else .ok count.toNat

/-- The current row is as wide as the result. -/
def Handle.Wide (h : Handle) : Prop := ∀ r, h.row = some r → r.length = h.columnCount

/-- A refusal of an index depends on a row by its width only. -/
theorem admitted_blind {row row' : Option Row} (same : row'.map List.length = row.map List.length)
    {i : Int} {f : Fault} (hf : admitted row i = .error f) : admitted row' i = .error f := by
  rcases row with _ | r
  · rw [Option.map_eq_none_iff.mp same]
    exact hf
  · rcases Option.map_eq_some_iff.mp same with ⟨r', rfl, hlen⟩
    simp only [admitted, hlen] at hf ⊢
    by_cases hin : 0 ≤ i ∧ i < r.length
    · rw [dif_pos hin] at hf
      cases hf
    · rw [dif_neg hin] at hf ⊢
      exact hf

/-- Whether a width is admitted depends on a row by its own width only. -/
theorem admittedWidth_blind {row row' : Option Row}
    (same : row'.map List.length = row.map List.length) (count : Int) :
    admittedWidth row' count = admittedWidth row count := by
  rcases row with _ | r
  · rw [Option.map_eq_none_iff.mp same]
  · rcases Option.map_eq_some_iff.mp same with ⟨r', rfl, hlen⟩
    simp only [admittedWidth, hlen]

/-- A width that is admitted is no more than that of the row. -/
theorem admittedWidth_ok {row : Option Row} {count : Int} {n : Nat}
    (hn : admittedWidth row count = .ok n) : ∃ r, row = some r ∧ n ≤ r.length := by
  unfold admittedWidth at hn
  split at hn
  · cases hn
  · rcases row with _ | r
    · cases hn
    · simp only [] at hn
      split at hn
      · cases hn
      · refine ⟨r, rfl, ?_⟩
        rw [← Except.ok.inj hn]
        omega

theorem admitted_within {row : Option Row} {r : Row} (hr : row = some r) {k : Nat}
    (hk : k < r.length) : admitted row k = .ok (r.get ⟨k, hk⟩) := by
  have hin : 0 ≤ (k : Int) ∧ (k : Int) < r.length := by omega
  rw [hr]
  simp only [admitted]
  rw [dif_pos hin]
  rfl

/-- An admitted index finds its cell. Indices below zero would count from the
    end of the row, but they are not admitted. -/
theorem Handle.cellAt_admitted {h : Handle} {i : Int} {cell : Cell}
    (hi : admitted h.row i = .ok cell) :
    h.cellAt i = .ok cell ∧ ∃ r, h.row = some r ∧ 0 ≤ i ∧ r[i.toNat]? = some cell := by
  unfold admitted at hi
  rcases hr : h.row with _ | r
  · rw [hr] at hi
    cases hi
  · simp only [hr] at hi
    by_cases hin : 0 ≤ i ∧ i < r.length
    · rw [dif_pos hin] at hi
      have hget : r[i.toNat]? = some cell := by
        rw [← Except.ok.inj hi]
        exact List.getElem?_eq_getElem _
      have hpos : ¬ i < 0 := by omega
      refine ⟨?_, r, rfl, hin.1, hget⟩
      simp only [Handle.cellAt, hr, fromEnd?, hpos, if_false, hget]
    · rw [dif_neg hin] at hi
      cases hi

namespace Session

section

variable {s : Session} {id : StatementId} {st : Statement} {handle : Handle}
  (found : s.statement? id = some (st, handle)) (wide : handle.Wide)

include wide

/-- An index is located exactly if it is admitted. -/
theorem locate_index (i : Int) :
    s.locate id st handle (.index i) = match admitted handle.row i with
      | .error f => (.error f, s)
      | .ok _ => (.ok i, s) := by
  unfold locate admitted checkIndex
  rcases hrow : handle.row with _ | r
  · simp only [Handle.hasRow, hrow, Option.isSome_none, Bool.not_false, if_true]
  · have hwidth := wide r hrow
    simp only [Handle.hasRow, hrow, Option.isSome_some, Bool.not_true, Bool.false_eq_true, if_false,
      ← hwidth]
    by_cases hin : 0 ≤ i ∧ i < r.length
    · have hcheck : ¬ (i < 0 ∨ i ≥ r.length) := by omega
      rw [if_neg hcheck, dif_pos hin]
    · have hcheck : i < 0 ∨ i ≥ r.length := by omega
      rw [if_pos hcheck, dif_neg hin]

theorem checkWidth_eq (count : Int) : checkWidth handle count = admittedWidth handle.row count := by
  unfold checkWidth admittedWidth
  rcases hrow : handle.row with _ | r
  · simp only [Handle.hasRow, hrow, Option.isSome_none, Bool.not_false, if_true]
  · simp only [Handle.hasRow, hrow, Option.isSome_some, Bool.not_true, Bool.false_eq_true, if_false,
      ← wide r hrow]

include found

theorem getColumn_index (i : Int) :
    s.getColumn id (.index i) = match admitted handle.row i with
      | .error f => (.error f, s)
      | .ok _ => (.ok s.views.length, (s.newView st.handle i).2) := by
  simp only [getColumn, found, locate_index wide i]
  rcases admitted handle.row i with f | cell
  · rfl
  · rfl

/-- To ask whether a column is null by its index is to look at the cell, if the
    row has one there. -/
theorem isColumnNull_index (i : Int) :
    s.isColumnNull id (.index i) = match admitted handle.row i with
      | .error f => (.error f, s)
      | .ok cell => (ofCellReading (cell.storageClass.map (· == .null)), s) := by
  simp only [isColumnNull, found, locate_index wide i]
  rcases hi : admitted handle.row i with f | cell
  · rfl
  · simp only [(Handle.cellAt_admitted hi).1, bind, Except.bind]
    rcases cell.storageClass with f | k
    · rfl
    · rfl

theorem getColumns_width (shape : Shape) (count : Int) :
    s.getColumns id shape count = match admittedWidth handle.row count with
      | .error f => (.error f, s)
      | .ok n => (s.newViews st.handle (List.range n)).2.buildRecord shape
          (s.newViews st.handle (List.range n)).1 := by
  rcases hcount : admittedWidth handle.row count with f | n
  · simp only [getColumns, found, checkWidth_eq wide count, hcount]
  · simp only [getColumns, found, checkWidth_eq wide count, hcount]

end

theorem newView_found (s : Session) (h : HandleId) (handle : Handle)
    (hh : s.handles[h]? = some handle) (i : Int) :
    (s.newView h i).2.views[s.views.length]? = some ⟨h, i, true⟩ ∧
      (s.newView h i).2.handles[h]? = some { handle with shares := handle.shares + 1 } := by
  have hmodify := getElem?_modify_of_some s.handles (fun x => { x with shares := x.shares + 1 }) h h
    handle hh
  rw [if_pos rfl] at hmodify
  exact ⟨List.getElem?_concat_length, hmodify⟩

theorem column?_shares (s : Session) (v : ViewId) (h : HandleId) (i : Int) (handle : Handle)
    (shares : Nat) (hv : s.views[v]? = some ⟨h, i, true⟩)
    (hh : s.handles[h]? = some { handle with shares := shares }) :
    s.column? v = some (handle.column v i) := by
  simp only [column?, hv, hh, Option.bind_eq_bind, Option.bind_some, Option.pure_def]
  rfl

/-- The columns that the views of a record find are those of the handle, in
    order, each under the identity of its view. Making more views changes
    nothing for those that were made. -/
theorem newViews_columns (h : HandleId) (is : List Nat) (s : Session) (handle : Handle)
    (hh : s.handles[h]? = some handle) :
    (∃ shares, (s.newViews h is).2.handles[h]? = some { handle with shares := shares }) ∧
      (∀ (v : ViewId) view, s.views[v]? = some view →
        (s.newViews h is).2.views[v]? = some view) ∧
      (s.newViews h is).1.filterMap (s.newViews h is).2.column? =
        (is.zipIdx s.views.length).map fun p => handle.column p.2 p.1 := by
  -- The handle is generalized, as each view takes a share of it.
  induction is generalizing s handle with
  | nil => exact ⟨⟨handle.shares, hh⟩, fun v view (hv : s.views[v]? = some view) => hv, rfl⟩
  | cons i rest ih =>
      rcases newView_found s h handle hh i with ⟨hview, hhandle⟩
      have hlen : (s.newView h i).2.views.length = s.views.length + 1 := List.length_append
      rcases ih (s.newView h i).2 _ hhandle with ⟨⟨shares, hshares⟩, hviews, hcolumns⟩
      rw [hlen] at hcolumns
      have hold : ∀ (v : ViewId) view, s.views[v]? = some view →
          (s.newViews h (i :: rest)).2.views[v]? = some view := fun v view hv =>
        hviews v view (getElem?_concat_of_some _ _ _ _ hv)
      refine ⟨⟨shares, hshares⟩, hold, ?_⟩
      have hfirst : (s.newViews h (i :: rest)).2.column? s.views.length =
          some (handle.column s.views.length i) :=
        column?_shares _ _ h i handle shares (hviews _ _ hview) hshares
      rw [List.zipIdx_cons, List.map_cons]
      exact (List.filterMap_cons_some hfirst).trans (congrArg (_ :: ·) hcolumns)

/-- Everything that reads the columns of a statement by index goes by what its
    row admits. -/
structure Admits (s : Session) (id : StatementId) (st : Statement) (handle : Handle) : Prop where
  -- An index that is refused is refused to all who ask, and nothing else
  -- happens.
  refused : ∀ i f, admitted handle.row i = .error f →
    s.getColumn id (.index i) = (.error f, s) ∧ s.isColumnNull id (.index i) = (.error f, s)
  -- An index that is admitted yields a new view, and the view finds the cell.
  viewed : ∀ i cell, admitted handle.row i = .ok cell → ∃ t c,
    s.getColumn id (.index i) = (.ok s.views.length, t) ∧
      t.column? s.views.length = some c ∧ c.index = i ∧ c.hasRow = true ∧ c.cell = .ok cell
  -- Whether the column is NULL is what that view would say.
  null : ∀ i cell, admitted handle.row i = .ok cell →
    (s.isColumnNull id (.index i)).2 = s ∧
      (s.isColumnNull id (.index i)).1.map .truth =
        (s.getColumn id (.index i)).2.ask (.get s.views.length (.isClass .null))
  -- It says so of every cell that has a storage class.
  classed : ∀ i cell k, admitted handle.row i = .ok cell → cell.storageClass = .ok k →
    (s.isColumnNull id (.index i)).1 = .ok (k == .null)
  -- A width that is refused is refused for every record, and nothing else
  -- happens.
  narrow : ∀ shape count f, admittedWidth handle.row count = .error f →
    s.getColumns id shape count = (.error f, s)
  -- A record of an admitted width is built from the first columns, and these
  -- have cells.
  built : ∀ shape count n, admittedWidth handle.row count = .ok n → ∃ columns : List Column,
    (s.getColumns id shape count).1 = shape.build columns ∧ columns.length = n ∧
      ∀ (k : Nat) c, columns[k]? = some c →
        c.index = k ∧ c.hasRow = true ∧ ∃ cell, admitted handle.row k = .ok cell ∧ c.cell = .ok cell

/-- A record is what its shape makes of the columns that the views find. -/
theorem buildRecord_answer (shape : Shape) (ids : List ViewId) (s : Session) :
    (s.buildRecord shape ids).1 = shape.build (ids.filterMap s.column?) := by
  unfold buildRecord
  rcases shape.build (ids.filterMap s.column?) with f | value
  · rfl
  · rfl

/-- A statement whose rows are as wide as its result admits exactly. -/
theorem admits_of_wide (s : Session) (id : StatementId) (st : Statement) (handle : Handle)
    (found : s.statement? id = some (st, handle)) (wide : handle.Wide) :
    s.Admits id st handle := by
  have hh := ((statement?_eq_some_iff s id st handle).mp found).2
  -- The view that an admitted index yields.
  have view : ∀ i cell, admitted handle.row i = .ok cell →
      s.getColumn id (.index i) = (.ok s.views.length, (s.newView st.handle i).2) ∧
        (s.newView st.handle i).2.column? s.views.length =
          some (handle.column s.views.length i) := by
    intro i cell hi
    rcases newView_found s st.handle handle hh i with ⟨hview, hhandle⟩
    refine ⟨?_, column?_shares _ _ st.handle i handle _ hview hhandle⟩
    rw [getColumn_index found wide i, hi]
  have row : ∀ i cell, admitted handle.row i = .ok cell → handle.hasRow = true := by
    intro i cell hi
    rcases (Handle.cellAt_admitted hi).2 with ⟨r, hr, -⟩
    rw [Handle.hasRow, hr]
    rfl
  refine ⟨?_, ?_, ?_, ?_, ?_, ?_⟩
  · -- The checks come before anything is made or read.
    intro i f hi
    rw [getColumn_index found wide i, isColumnNull_index found wide i, hi]
    exact ⟨rfl, rfl⟩
  · intro i cell hi
    rcases view i cell hi with ⟨hget, hcolumn⟩
    exact ⟨_, _, hget, hcolumn, rfl, row i cell hi, (Handle.cellAt_admitted hi).1⟩
  · intro i cell hi
    rcases view i cell hi with ⟨hget, hcolumn⟩
    rw [isColumnNull_index found wide i, hi, hget]
    refine ⟨rfl, ?_⟩
    rw [ask, askView, hcolumn]
    simp only []
    have hcell := (Handle.cellAt_admitted hi).1
    rw [Column.get_eq_projection _ cell hcell (row i cell hi) (.isClass .null) _ rfl]
    rcases cell.storageClass with f | k
    · rfl
    · rfl
  · intro i cell k hi hk
    rw [isColumnNull_index found wide i, hi]
    simp only [hk]
    rfl
  · intro shape count f hcount
    rw [getColumns_width found wide shape count, hcount]
  · intro shape count n hcount
    -- A record is built of the columns that its views find, and each of them is
    -- admitted.
    rcases newViews_columns st.handle (List.range n) s handle hh with ⟨-, -, hcolumns⟩
    rcases admittedWidth_ok hcount with ⟨r, hr, hn⟩
    refine ⟨((List.range n).zipIdx s.views.length).map fun p => handle.column p.2 p.1, ?_, ?_, ?_⟩
    · rw [getColumns_width found wide shape count, hcount]
      simp only [buildRecord_answer, hcolumns]
    · rw [List.length_map, List.length_zipIdx, List.length_range]
    · intro k c hc
      -- The column at a place is that of the index, seen by the view of this
      -- place.
      rcases Option.map_eq_some_iff.mp (List.getElem?_map ▸ hc) with ⟨p, hp, rfl⟩
      rw [List.getElem?_zipIdx] at hp
      rcases Option.map_eq_some_iff.mp hp with ⟨j, hj, rfl⟩
      rcases List.getElem?_eq_some_iff.mp hj with ⟨hlt, hget⟩
      rw [List.length_range] at hlt
      rw [List.getElem_range] at hget
      subst hget
      have hadmit := admitted_within hr (Nat.lt_of_lt_of_le hlt hn)
      exact ⟨rfl, row k _ hadmit, _, hadmit, (Handle.cellAt_admitted hadmit).1⟩

/-- A refusal is the same for every other row that is as wide, whatever its
    cells are. -/
theorem refused_blind (s : Session) (id : StatementId) (st : Statement) (handle : Handle)
    (found : s.statement? id = some (st, handle)) (wide : handle.Wide) (row : Option Row)
    (same : row.map List.length = handle.row.map List.length) :
    (∀ i f, admitted handle.row i = .error f →
      ((s.setRow st.handle row).getColumn id (.index i)).1 = .error f ∧
        ((s.setRow st.handle row).isColumnNull id (.index i)).1 = .error f) ∧
      ∀ shape count f, admittedWidth handle.row count = .error f →
        ((s.setRow st.handle row).getColumns id shape count).1 = .error f := by
  have found' := ((stands_self s id st handle found).onHandle fun h => { h with row := row }).found
  have wide' : ({ handle with row := row } : Handle).Wide := by
    intro r hr
    simp only [] at hr
    rw [hr] at same
    rcases Option.map_eq_some_iff.mp same.symm with ⟨r', hr', hlen⟩
    exact hlen.symm.trans (wide r' hr')
  have admits := admits_of_wide _ id st _ found' wide'
  constructor
  · intro i f hi
    rcases admits.refused i f (admitted_blind same hi) with ⟨hget, hnull⟩
    exact ⟨congrArg Prod.fst hget, congrArg Prod.fst hnull⟩
  · intro shape count f hcount
    have hnarrow := admits.narrow shape count f ((admittedWidth_blind same count).trans hcount)
    exact congrArg Prod.fst hnarrow

/-- An admitted view finds its cell for as long as it may be used. What was
    admitted is what the view shows, and that stays as long as the view is
    spared. -/
theorem admitted_stable (e : Engine) (s t : Session) (hs : Reachable e Command.keepsCounts s)
    (id : StatementId) (st : Statement) (handle : Handle)
    (found : s.statement? id = some (st, handle)) (i : Int) (v : ViewId)
    (got : s.getColumn id (.index i) = (.ok v, t)) (cell : Cell)
    (hi : admitted handle.row i = .ok cell) (cs : List Command) (hcs : t.Spares e v id cs) :
    (t.run e cs).2.Answers v i.toNat cell := by
  rcases getColumn_shows id (.index i) s t v (reachable_backed e s hs) got with
    ⟨h, j, r, x, hshows, hx, hr, hkey⟩
  have ht : Reachable e Command.keepsCounts t := by
    have hnext := hs.perform (.getColumn id (.index i)) trivial
    simp only [perform, viewing_state, got] at hnext
    exact hnext
  -- The handle that is shown is that of the statement, which keeps it.
  rcases (statement?_eq_some_iff s id st handle).mp found with ⟨hst, hh⟩
  have hleads := getColumn_leads 0 id (.index i) s
  rw [got] at hleads
  rcases hleads.statement_kept id st hst with ⟨st1, hst1, hown1, -⟩
  rcases hshows.statement with ⟨st2, hst2, rfl⟩
  rw [hst1, Option.some.injEq] at hst2
  rw [← hst2, hown1, hh, Option.some.injEq] at hx
  rcases (Handle.cellAt_admitted hi).2 with ⟨r', hr', hpos, hcell⟩
  rw [← hx, hr', Option.some.injEq] at hr
  -- And the index is that of the key.
  have hj : j = i.toNat := by
    rcases hkey with hkey | ⟨name, hkey, -⟩
    · rw [Key.index.inj hkey]
      exact (Int.toNat_natCast j).symm
    · exact Key.noConfusion hkey
  rw [hj] at hshows
  rw [hr] at hcell
  exact (hshows.run e ht cs hcs).answers cell hcell

/-- In every session every statement admits exactly what its row has, provided
    that the engine's rows are as wide as their results and that nobody executes
    a cursor or sets a row directly. Refusals do not look at the cells, and what
    was admitted is found for as long as the view may be used.

    The check is made against the result and not against the row. That the two
    go together in every session is what `reachable_keeps` says; the rest is
    about one session. -/
theorem reachable_admits (e : Engine) (he : e.Keeps fun names r => r.length = names.length)
    (s : Session) (hs : Reachable e Command.usesNoHandle s) (id : StatementId) (st : Statement)
    (handle : Handle) (found : s.statement? id = some (st, handle)) :
    s.Admits id st handle ∧
      (∀ row, row.map List.length = handle.row.map List.length →
        (∀ i f, admitted handle.row i = .error f →
          ((s.setRow st.handle row).getColumn id (.index i)).1 = .error f ∧
            ((s.setRow st.handle row).isColumnNull id (.index i)).1 = .error f) ∧
        ∀ shape count f, admittedWidth handle.row count = .error f →
          ((s.setRow st.handle row).getColumns id shape count).1 = .error f) ∧
      (Reachable e Command.keepsCounts s → ∀ i v t cell,
        s.getColumn id (.index i) = (.ok v, t) → admitted handle.row i = .ok cell →
          ∀ cs, t.Spares e v id cs → (t.run e cs).2.Answers v i.toNat cell) := by
  have wide : handle.Wide := (reachable_keeps e he s hs id st handle found).row
  refine ⟨admits_of_wide s id st handle found wide, ?_, ?_⟩
  · intro row same
    exact refused_blind s id st handle found wide row same
  · intro hkeeps i v t cell got hi cs hcs
    exact admitted_stable e s t hkeeps id st handle found i v got cell hi cs hcs

theorem oneRow_keeps : Engine.oneRow.Keeps fun names r => r.length = names.length := by
  intro past sql params a ha r hr
  rw [← Except.ok.inj ha] at hr ⊢
  rw [Except.ok.inj (List.mem_singleton.mp hr)]
  rfl

theorem stepping_usesNoHandle :
    Reachable .oneRow Command.usesNoHandle (unopened.run .oneRow stepping).2 := by
  refine reachable_run .oneRow _ stepping unopened (.start [] .standard ⟨.root, []⟩) ?_
  intro c hc
  simp only [stepping, List.mem_cons, List.not_mem_nil, or_false] at hc
  rcases hc with rfl | rfl | rfl
  all_goals trivial

/-- The row has one column, and a record of two is refused. -/
theorem reachable_admits_stepping :
    ∃ st handle, (unopened.run .oneRow stepping).2.statement? 0 = some (st, handle) ∧
      (unopened.run .oneRow stepping).2.Admits 0 st handle ∧
      (unopened.run .oneRow stepping).2.getColumns 0 .columns 2 =
        (.error (.access (.columnIndex 1 1)), (unopened.run .oneRow stepping).2) := by
  have admits := (reachable_admits .oneRow oneRow_keeps _ stepping_usesNoHandle 0 _ _ rfl).1
  exact ⟨_, _, rfl, admits, admits.narrow .columns 2 _ rfl⟩

end Session

end RowScope
