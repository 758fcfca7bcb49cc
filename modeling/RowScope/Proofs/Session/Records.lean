import RowScope.Proofs.Column.Holding
import RowScope.Proofs.Session.Effects
import RowScope.Proofs.Session.Stability
import RowScope.Proofs.Session.Standing

/-!
# Records from a Row

To build a record, views are made of the first columns of the row, and those
that the record does not hold are released at once. Here it is said what the
record is made of and what it costs.

The column that a view finds is the one that anybody finds who asks for the same
index, apart from the identity of the view. So the values of a record are those
that the columns would be converted to one by one, and it only has to be said
which annotation belongs to which column.

The shares of all the views are taken first and given back one by one. A handle
that did not end has a share of its own, so giving them back is never its end,
and what remains is a share for each view that the record holds. A handle that
has ended has no row in general. If a row is set on it nevertheless then nothing
is given back, since it counts no more.

## Main definitions

* `Session.drawn`: The column that the view at a place finds.
* `Session.BindsRight`: A record is made of the columns that its fields bind to.
* `Session.keeping`: The session after some of several new views were kept.
* `Session.givenBack`: The views after some of them were given back.
* `Session.Settles`: What building a record costs.

## Theorems

* `releaseViews_fresh`: Giving back several views of a handle that keeps a
  share.
* `getColumns_drawn`: A record is what its shape makes of the columns of the
  row.
* `record_bound`: Records are bound right if no parameter that is given by name
  only gets in between.
* `record_misbound`: Else they are not.
* `record_settled`: A record costs as many shares as it holds views.
* `record_unsettled`: Except if its handle had ended.
-/

namespace RowScope

namespace Session

/-! ### The columns of a record -/

/-- The column that the view at a place of a record finds. -/
def drawn (s : Session) (handle : Handle) (i : Nat) : Column :=
  handle.column (s.views.length + i) i

/-- A width that passes the check lies within the result, and a row is
    current. -/
theorem checkWidth_within (handle : Handle) (count : Int) (n : Nat)
    (width : checkWidth handle count = .ok n) :
    handle.hasRow = true ∧ n ≤ handle.columnCount := by
  refine ⟨checkWidth_ok handle count n width, ?_⟩
  unfold checkWidth at width
  split at width
  · exact nomatch width
  · split at width
    · exact nomatch width
    · split at width
      · exact nomatch width
      · rw [Except.ok.injEq] at width
        omega

/-- A column within the width of a record can be asked for. -/
theorem getColumn_within (s : Session) (id : StatementId) (st : Statement) (handle : Handle)
    (found : s.statement? id = some (st, handle)) (i : Nat) (row : handle.hasRow = true)
    (hi : i < handle.columnCount) :
    s.getColumn id (.index i) = (.ok s.views.length, (s.newView st.handle i).2) ∧
      (s.newView st.handle i).2.column? s.views.length =
        some (handle.column s.views.length i) := by
  have hh := ((statement?_eq_some_iff s id st handle).mp found).2
  rcases newView_found s st.handle handle hh i with ⟨hview, hhandle⟩
  refine ⟨?_, column?_shares _ _ st.handle i handle _ hview hhandle⟩
  have hindex : checkIndex handle i = .ok () := by
    unfold checkIndex
    rw [if_neg (by omega)]
  simp only [getColumn, found, locate, row, hindex, Bool.not_true, Bool.false_eq_true, if_false]
  rfl

/-- The views that are made for a record find its columns. -/
theorem newViews_drawn (s : Session) (h : HandleId) (handle : Handle)
    (hh : s.handles[h]? = some handle) (n : Nat) :
    (s.newViews h (List.range n)).1.filterMap (s.newViews h (List.range n)).2.column? =
      (List.range n).map (s.drawn handle) := by
  rw [(newViews_columns h (List.range n) s handle hh).2.2]
  refine List.ext_getElem? ?_
  intro i
  rw [List.getElem?_map, List.getElem?_map, List.getElem?_zipIdx]
  by_cases hi : i < n
  · rw [List.getElem?_range hi]
    rfl
  · rw [List.getElem?_eq_none (by rw [List.length_range]; omega)]
    rfl

/-- A record is what its shape makes of the columns of the row. Which views were
    given back is of no importance to it, because that comes after. -/
theorem getColumns_drawn (s : Session) (id : StatementId) (st : Statement) (handle : Handle)
    (found : s.statement? id = some (st, handle)) (shape : Shape) (count : Int) (n : Nat)
    (width : checkWidth handle count = .ok n) :
    (s.getColumns id shape count).1 = shape.build ((List.range n).map (s.drawn handle)) := by
  have hh := ((statement?_eq_some_iff s id st handle).mp found).2
  simp only [getColumns, found, width]
  rw [buildRecord_answer, newViews_drawn s st.handle handle hh n]

/-- A record with fields is made of the columns that its fields bind to. -/
structure BindsRight (s : Session) (id : StatementId) (handle : Handle) (n : Nat) (name : Text)
    (fs : List Field) (answer : Except Fault Value) : Prop where
  /-- The column at a place is the one that is found at this index, under an
      identity of its own. -/
  found : ∀ i < n, ∃ t c, s.getColumn id (.index i) = (.ok s.views.length, t) ∧
    t.column? s.views.length = some c ∧ s.drawn handle i = c.renamed fun _ => s.views.length + i
  /-- The record is made, if it can be, of the conversions to what the places
      bind to. Only if one of them fails the first one that does is the
      answer. -/
  called : (∃ values, values.length = n ∧
      (∀ i < n, ∃ v, values[i]? = some v ∧
        (s.drawn handle i).convert (Field.bound fs i) = .ok v) ∧
      answer = (Shape.fields name fs).construct ((List.range n).map (s.drawn handle)) values) ∨
    ∃ i < n, ∃ fault, (s.drawn handle i).convert (Field.bound fs i) = .error fault ∧
      (∀ j < i, ∃ v, (s.drawn handle j).convert (Field.bound fs j) = .ok v) ∧
      answer = .error fault
  /-- A field of the record holds its own column, converted by its own
      annotation. -/
  held : ∀ held, answer = .ok (.record name held) → ∀ j f, fs[j]? = some f →
    f.isPositional = true → Field.place fs j < n →
      ∃ v, (s.drawn handle (Field.place fs j)).convert f.target = .ok v ∧
        held[j]? = some (f.name, v)
  /-- A field without a column has its default. -/
  default : ∀ held, answer = .ok (.record name held) → ∀ j f, fs[j]? = some f →
    f.isPositional = false ∨ n ≤ Field.place fs j → held[j]? = f.byDefault

/-- A record is bound right if no parameter that is given by name only is among
    the first ones, as many as there are columns. The columns are converted by
    the annotations of the first parameters, however they are given, and handed
    over by position. Under the hypothesis these are the same, and that is the
    only place where it is used. -/
theorem record_bound (s : Session) (id : StatementId) (st : Statement) (handle : Handle)
    (found : s.statement? id = some (st, handle)) (count : Int) (n : Nat)
    (width : checkWidth handle count = .ok n) (name : Text) (fs : List Field)
    (plain : ∀ f ∈ (fs.filter Field.isParameter).take n, f.keywordOnly = false) :
    s.BindsRight id handle n name fs (s.getColumns id (.fields name fs) count).1 := by
  rcases checkWidth_within handle count n width with ⟨row, hn⟩
  rw [getColumns_drawn s id st handle found _ count n width, Shape.build, Shape.arguments_taken]
  have taken : ∀ i < n, Field.taken fs i = Field.bound fs i := fun i hi =>
    Field.taken_eq_bound fs n plain i hi
  have hfound : ∀ i < n, ∃ t c, s.getColumn id (.index i) = (.ok s.views.length, t) ∧
      t.column? s.views.length = some c ∧
        s.drawn handle i = c.renamed fun _ => s.views.length + i := by
    intro i hi
    rcases getColumn_within s id st handle found i row (Nat.lt_of_lt_of_le hi hn) with ⟨hget, hc⟩
    exact ⟨_, _, hget, hc, rfl⟩
  rcases mapM_range (fun i => (s.drawn handle i).convert (Field.taken fs i)) n with
    ⟨values, hvalues, hlength, hall⟩ | ⟨i, hi, fault, hfault, hfail, hbefore⟩
  · -- All columns are converted, so the constructor is called.
    rw [hvalues]
    have hconverted : ∀ i < n, ∃ v, values[i]? = some v ∧
        (s.drawn handle i).convert (Field.bound fs i) = .ok v := by
      intro i hi
      rcases hall i hi with ⟨v, hv, hi'⟩
      rw [taken i hi] at hi'
      exact ⟨v, hv, hi'⟩
    -- A record that was made is made of its fields, and these are filled from
    -- the values.
    have hfilled : ∀ held, (Shape.fields name fs).construct
        ((List.range n).map (s.drawn handle)) values = .ok (.record name held) →
          Field.fill fs values = some held := by
      intro held hheld
      rw [Shape.construct] at hheld
      rcases hfill : Field.fill fs values with _ | others
      · rw [hfill] at hheld
        cases hheld
      · rw [hfill, Except.ok.injEq, Value.record.injEq] at hheld
        rw [hheld.2]
    refine ⟨hfound, Or.inl ⟨values, hlength, hconverted, rfl⟩, ?_, ?_⟩
    · intro held hheld j f hf hpositional hplace
      rcases hconverted (Field.place fs j) hplace with ⟨v, hv, hconvert⟩
      rw [Field.bound_place fs j f hf hpositional] at hconvert
      refine ⟨v, hconvert, ?_⟩
      rw [Field.fill_held fs values held (hfilled held hheld) j f hf, hv, Field.ending]
      simp only [hpositional]
    · intro held hheld j f hf hwithout
      rw [Field.fill_held fs values held (hfilled held hheld) j f hf]
      refine Field.ending_default f _ ?_
      rcases hwithout with hdefault | hbeyond
      · exact Or.inl hdefault
      · exact Or.inr (List.getElem?_eq_none (by omega))
  · -- A conversion is the first that fails, and there is no record.
    rw [hfault]
    refine ⟨hfound, Or.inr ⟨i, hi, fault, ?_, ?_, rfl⟩, ?_, ?_⟩
    · rw [← taken i hi]
      exact hfail
    · intro j hj
      rcases hbefore j hj with ⟨v, hv⟩
      rw [taken j (Nat.lt_trans hj hi)] at hv
      exact ⟨v, hv⟩
    · intro held hheld
      cases hheld
    · intro held hheld
      cases hheld

/-- The fields of a record of which only the second one takes a column by
    position. -/
def mixed : List Field :=
  [⟨Text.ofString "note", some .text, some .null, false, false⟩,
    ⟨Text.ofString "id", some .integer, none, true, false⟩,
    ⟨Text.ofString "unit", some .text, some (.text []), true, true⟩]

/-- The column goes to the second field, and the others have their defaults. -/
theorem record_bound_mixed :
    ∃ st handle, (unopened.run .oneRow stepping).2.statement? 0 = some (st, handle) ∧
      checkWidth handle 1 = .ok 1 ∧
      (unopened.run .oneRow stepping).2.BindsRight 0 handle 1 [] mixed
        ((unopened.run .oneRow stepping).2.getColumns 0 (.fields [] mixed) 1).1 ∧
      ((unopened.run .oneRow stepping).2.getColumns 0 (.fields [] mixed) 1).1 =
        .ok (.record [] [(Text.ofString "note", .null), (Text.ofString "id", .integer 7),
          (Text.ofString "unit", .text [])]) := by
  refine ⟨_, _, rfl, rfl, record_bound _ 0 _ _ rfl 1 1 rfl [] mixed ?_, rfl⟩
  intro f hf
  -- The first parameter is the second field.
  rw [List.mem_singleton.mp
    (show f ∈ [(⟨Text.ofString "id", some .integer, none, true, false⟩ : Field)] from hf)]

end Session

/-- An engine for which every execution yields one row of one NULL. -/
def Engine.oneNull : Engine where
  connect _ _ := none
  pragma _ _ := none
  script _ _ := (0, none)
  execute _ _ _ := .ok ⟨some [[]], [.ok [.null]], -1, 0⟩

namespace Session

/-- The fields of a record of which the first one is given by name only. -/
def crossed : List Field :=
  [⟨Text.ofString "limit", some .integer, some (.integer 0), true, true⟩,
    ⟨Text.ofString "id", some (.choice .bars [.integer, .nothing]), some (.integer 0), true, false⟩]

/-- The column goes to the second field, but is converted by the annotation of
    the first one. So the field holds the integer that NULL is converted to,
    though it would hold nothing. -/
theorem record_misbound :
    ∃ st handle, (unopened.run .oneNull stepping).2.statement? 0 = some (st, handle) ∧
      checkWidth handle 1 = .ok 1 ∧
      ((unopened.run .oneNull stepping).2.getColumns 0 (.fields [] crossed) 1).1 =
        .ok (.record [] [(Text.ofString "limit", .integer 0), (Text.ofString "id", .integer 0)]) ∧
      ¬ (unopened.run .oneNull stepping).2.BindsRight 0 handle 1 [] crossed
        ((unopened.run .oneNull stepping).2.getColumns 0 (.fields [] crossed) 1).1 := by
  refine ⟨_, _, rfl, rfl, rfl, ?_⟩
  intro h
  rcases h.held _ rfl 1 _ rfl rfl (Nat.lt_succ_self 0) with ⟨v, hv, hheld⟩
  -- The annotation of the field makes nothing of the cell.
  have hnull : v = .null := (Except.ok.inj hv).symm
  rw [hnull] at hheld
  cases hheld

/-! ### The shares of a record -/

/-- The session after several views of a handle were made and some of them were
    kept. -/
def keeping (s : Session) (h : HandleId) (n : Nat) (kept : ViewId → Bool) : Session :=
  { s.onHandle h fun x =>
      { x with shares := x.shares + (List.range' s.views.length n).countP kept } with
    views := s.views ++ (List.range n).map fun i => ⟨h, i, kept (s.views.length + i)⟩ }

/-- The views after some of them were given back. -/
def givenBack (views : List View) (vs : List ViewId) : List View :=
  views.mapIdx fun v view => { view with holding := view.holding && !vs.contains v }

theorem getElem?_givenBack (views : List View) (vs : List ViewId) (v : ViewId) :
    (givenBack views vs)[v]? =
      views[v]?.map fun view => { view with holding := view.holding && !vs.contains v } :=
  List.getElem?_mapIdx

theorem givenBack_nil (views : List View) : givenBack views [] = views := by
  refine List.ext_getElem? ?_
  intro w
  rw [getElem?_givenBack]
  rcases views[w]? with _ | view
  · rfl
  · simp only [List.contains_nil, Bool.not_false, Bool.and_true, Option.map_some]

/-- One view is given back before the others. -/
theorem givenBack_cons (views : List View) (v : ViewId) (vs : List ViewId) :
    givenBack (views.modify v fun view => { view with holding := false }) vs =
      givenBack views (v :: vs) := by
  refine List.ext_getElem? ?_
  intro w
  rw [getElem?_givenBack, getElem?_givenBack, List.getElem?_modify]
  rcases views[w]? with _ | view
  · rfl
  · by_cases heq : v = w
    · subst heq
      simp
    · simp [heq, Ne.symm heq]

/-- A view gives back its share, which is not the last one of its handle. -/
theorem releaseView_spare (s : Session) (v : ViewId) (h : HandleId) (i : Int) (x : Handle)
    (hview : s.views[v]? = some ⟨h, i, true⟩) (hh : s.handles[h]? = some x)
    (live : x.finalized = false) (spare : 1 < x.shares) :
    s.releaseView v = { s.onHandle h fun x => { x with shares := x.shares - 1 } with
      views := s.views.modify v fun view => { view with holding := false } } := by
  have hmore : ¬ x.shares ≤ 1 := Nat.not_le_of_lt spare
  simp only [releaseView, hview, if_true, release, onView, onHandle, hh, live, hmore,
    Bool.false_eq_true, if_false]

/-- Giving back several views of a handle that has a share besides. The
    induction is on the views, with the session generalized: after the first one
    the others hold their shares still, and the handle has as many as are
    needed. -/
theorem releaseViews_fresh (vs : List ViewId) (s : Session) (h : HandleId) (x : Handle)
    (hh : s.handles[h]? = some x) (live : x.finalized = false) (enough : vs.length < x.shares)
    (distinct : vs.Nodup) (holding : ∀ v ∈ vs, ∃ i, s.views[v]? = some ⟨h, i, true⟩) :
    s.releaseViews vs = { s.onHandle h fun x => { x with shares := x.shares - vs.length } with
      views := givenBack s.views vs } := by
  induction vs generalizing s x with
  | nil =>
      have hsame : s.handles.modify h (fun x => { x with shares := x.shares - 0 }) = s.handles :=
        modify_eq_self_of s.handles _ h (fun _ _ => rfl)
      simp only [releaseViews, List.foldl_nil, onHandle, List.length_nil, hsame, givenBack_nil]
  | cons v rest ih =>
      rw [List.length_cons] at enough
      rcases List.nodup_cons.mp distinct with ⟨hv, hrest⟩
      rcases holding v List.mem_cons_self with ⟨i, hview⟩
      have hfirst := s.releaseView_spare v h i x hview hh live (by omega)
      have hhandle : (s.releaseView v).handles[h]? = some { x with shares := x.shares - 1 } := by
        rw [hfirst]
        have hmodify := getElem?_modify_of_some s.handles
          (fun x => { x with shares := x.shares - 1 }) h h x hh
        rw [if_pos rfl] at hmodify
        exact hmodify
      -- The others have not been touched yet.
      have hothers : ∀ w ∈ rest, ∃ i, (s.releaseView v).views[w]? = some ⟨h, i, true⟩ := by
        intro w hw
        rcases holding w (List.mem_cons_of_mem v hw) with ⟨j, hj⟩
        refine ⟨j, ?_⟩
        have hne : v ≠ w := by
          intro heq
          rw [heq] at hv
          exact hv hw
        rw [releaseView_views, List.getElem?_modify_ne _ _ hne, hj]
      have hstep := ih (s.releaseView v) _ hhandle live (by simp only []; omega) hrest hothers
      have hcount : ((fun x : Handle => { x with shares := x.shares - rest.length }) ∘
          fun x : Handle => { x with shares := x.shares - 1 }) =
            fun x : Handle => { x with shares := x.shares - (rest.length + 1) } := by
        funext x
        simp only [Function.comp_apply, Nat.sub_sub, Nat.add_comm 1]
      rw [releaseViews, List.foldl_cons]
      refine hstep.trans ?_
      rw [hfirst]
      simp only [onHandle, List.modify_modify_eq, hcount, givenBack_cons, List.length_cons]

/-- The new views after those that are not kept were given back. -/
theorem givenBack_new (views : List View) (h : HandleId) (n : Nat) (kept : ViewId → Bool) :
    givenBack (views ++ (List.range n).map fun i => ⟨h, (i : Nat), true⟩)
        ((List.range' views.length n).filter fun v => !kept v) =
      views ++ (List.range n).map fun i => ⟨h, (i : Nat), kept (views.length + i)⟩ := by
  refine List.ext_getElem? ?_
  intro j
  rw [getElem?_givenBack]
  by_cases hj : j < views.length
  · -- None of the older views is given back.
    rw [List.getElem?_append_left hj, List.getElem?_append_left hj, List.getElem?_eq_getElem hj]
    have hold : ((List.range' views.length n).filter fun v => !kept v).contains j = false := by
      rw [Bool.eq_false_iff]
      intro hc
      rw [List.contains_iff_mem, List.mem_filter, List.mem_range'_1] at hc
      omega
    simp only [Option.map_some, hold, Bool.not_false, Bool.and_true]
  · rw [List.getElem?_append_right (Nat.le_of_not_lt hj),
      List.getElem?_append_right (Nat.le_of_not_lt hj), List.getElem?_map, List.getElem?_map]
    -- Of the new ones, those that are not kept.
    by_cases hn : j - views.length < n
    · have hmember : ((List.range' views.length n).filter fun v => !kept v).contains j =
          !kept j := by
        rw [Bool.eq_iff_iff, List.contains_iff_mem, List.mem_filter, List.mem_range'_1]
        exact ⟨fun hc => hc.2, fun hc => ⟨by omega, hc⟩⟩
      have hplace : views.length + (j - views.length) = j := by omega
      simp only [List.getElem?_range hn, Option.map_some, hmember, Bool.true_and, Bool.not_not,
        hplace]
    · rw [List.getElem?_eq_none (by rw [List.length_range]; omega)]
      rfl

/-- Several views are made, and all but some of them given back. -/
theorem newViews_kept (s : Session) (h : HandleId) (x : Handle) (hh : s.handles[h]? = some x)
    (live : x.finalized = false) (funded : 0 < x.shares) (n : Nat) (kept : ViewId → Bool) :
    (s.newViews h (List.range n)).2.releaseViews
        ((s.newViews h (List.range n)).1.filter fun v => !kept v) = s.keeping h n kept := by
  rw [newViews_eq, List.length_range]
  -- What is kept and what is given back are all of the new views.
  have hsplit : ((List.range' s.views.length n).filter fun v => !kept v).length +
      (List.range' s.views.length n).countP kept = n := by
    have hlength := List.length_eq_countP_add_countP kept (l := List.range' s.views.length n)
    rw [List.length_range'] at hlength
    rw [← List.countP_eq_length_filter, Nat.add_comm]
    simpa only [Bool.not_eq_true, Bool.decide_eq_false] using hlength.symm
  have hhandle := getElem?_modify_of_some s.handles
    (fun x => { x with shares := x.shares + n }) h h x hh
  rw [if_pos rfl] at hhandle
  -- There is a share for each new view, and the one that the handle had.
  rw [releaseViews_fresh _ _ h { x with shares := x.shares + n } hhandle live]
  · have hcount : ((fun x : Handle => { x with shares := x.shares -
        ((List.range' s.views.length n).filter fun v => !kept v).length }) ∘
          fun x : Handle => { x with shares := x.shares + n }) =
            fun x : Handle =>
              { x with shares := x.shares + (List.range' s.views.length n).countP kept } := by
      funext x
      have hshares :
          x.shares + n - ((List.range' s.views.length n).filter fun v => !kept v).length =
          x.shares + (List.range' s.views.length n).countP kept := by
        omega
      simp only [Function.comp_apply, hshares]
    simp only [onHandle, List.modify_modify_eq, hcount, keeping]
    congr 1
    exact givenBack_new s.views h n kept
  · simp only []
    omega
  · have hdistinct : (List.range' s.views.length n).Nodup := List.nodup_range'
    exact hdistinct.filter _
  · -- Each of the views that are given back is a new one.
    intro v hv
    rw [List.mem_filter, List.mem_range'_1] at hv
    refine ⟨((v - s.views.length : Nat) : Int), ?_⟩
    simp only []
    rw [List.getElem?_append_right hv.1.1, List.getElem?_map, List.getElem?_range (by omega)]
    rfl

/-- If no view is kept then nothing remains of them but that they were made. -/
theorem keeping_none (s : Session) (h : HandleId) (n : Nat) :
    s.keeping h n (fun _ => false) =
      { s with views := s.views ++ (List.range n).map fun i => ⟨h, i, false⟩ } := by
  have hnone : (List.range' s.views.length n).countP (fun _ => false) = 0 := by
    rw [List.countP_eq_zero]
    intro v _
    exact Bool.false_ne_true
  have hsame : s.handles.modify h (fun x => { x with shares := x.shares + 0 }) = s.handles :=
    modify_eq_self_of s.handles _ h (fun _ _ => rfl)
  simp only [keeping, onHandle, hnone, hsame]

/-- Several views are made, and all of them given back. -/
theorem newViews_given (s : Session) (h : HandleId) (x : Handle) (hh : s.handles[h]? = some x)
    (live : x.finalized = false) (funded : 0 < x.shares) (n : Nat) :
    (s.newViews h (List.range n)).2.releaseViews (s.newViews h (List.range n)).1 =
      { s with views := s.views ++ (List.range n).map fun i => ⟨h, i, false⟩ } := by
  have hall :
      (s.newViews h (List.range n)).1.filter (fun v => !(fun _ => false : ViewId → Bool) v) =
      (s.newViews h (List.range n)).1 :=
    List.filter_eq_self.mpr (fun _ _ => rfl)
  have hkept := newViews_kept s h x hh live funded n fun _ => false
  rw [hall, keeping_none] at hkept
  exact hkept

/-- If a value holds some of the new views in order, apart from those that are
    not looked at, then it holds as many of the new views as there are such. -/
theorem countP_contains (ids held : List ViewId) (p : ViewId → Bool) (distinct : ids.Nodup)
    (all : ∀ v ∈ ids, p v = true) (part : (held.filter p).Sublist ids) :
    ids.countP (fun v => held.contains v) = held.countP p := by
  rw [List.countP_eq_length_filter, List.countP_eq_length_filter]
  -- Both are the members of `ids` that the value holds.
  refine List.Perm.length_eq ?_
  rw [List.perm_ext_iff_of_nodup (distinct.filter _) (part.nodup distinct)]
  intro v
  rw [List.mem_filter, List.mem_filter, List.contains_iff_mem]
  constructor
  · intro h
    exact ⟨h.2, all v h.1⟩
  · intro h
    exact ⟨part.subset (List.mem_filter.mpr h), h.1⟩

/-- The new views that a record holds are all that it holds, apart from its
    defaults. -/
theorem countP_made (s : Session) (handle : Handle) (shape : Shape) (n : Nat) (values : List Value)
    (value : Value) (handed : shape.arguments ((List.range n).map (s.drawn handle)) = .ok values)
    (made : shape.construct ((List.range n).map (s.drawn handle)) values = .ok value)
    (p : ViewId → Bool) (all : ∀ v, s.views.length ≤ v → p v = true)
    (older : ∀ v ∈ shape.defaultViews, p v = false) :
    (List.range' s.views.length n).countP (fun v => value.views.contains v) =
      value.views.countP p := by
  have hids : ((List.range n).map (s.drawn handle)).map Column.id =
      List.range' s.views.length n := by
    rw [List.map_map, List.range'_eq_map_range]
    rfl
  have hnew := shape.arguments_views _ values handed
  rw [hids] at hnew
  refine countP_contains _ value.views p List.nodup_range' ?_
    ((shape.construct_views _ values value made p older).trans hnew)
  intro v hv
  rw [List.mem_range'_1] at hv
  exact all v hv.1

/-- As long as nobody uses a handle directly, a handle that is on a row has not
    ended. -/
theorem live_of_hasRow (e : Engine) (s : Session) (kept : Reachable e Command.keepsCounts s)
    (h : HandleId) (handle : Handle) (hh : s.handles[h]? = some handle)
    (row : handle.hasRow = true) : handle.finalized = false := by
  have hbacked := reachable_backed e s kept h
  rw [account_of_some s h handle hh] at hbacked
  rw [← Bool.not_eq_true]
  intro hfin
  have hrow : handle.hasRow = false := (hbacked.ended hfin).1
  rw [row] at hrow
  exact Bool.noConfusion hrow

/-- What building a record costs: nothing if a check fails or no record comes of
    it, and else a share for each of the new views that the record holds. Apart
    from that nothing changes but that the views were made, in order and one for
    each column. -/
structure Settles (s : Session) (id : StatementId) (st : Statement) (handle : Handle)
    (shape : Shape) (count : Int) : Prop where
  refused : ∀ f, checkWidth handle count = .error f → s.getColumns id shape count = (.error f, s)
  /-- A conversion fails, and nothing is handed over. -/
  unconverted : ∀ n f, checkWidth handle count = .ok n →
    shape.arguments ((List.range n).map (s.drawn handle)) = .error f →
      s.getColumns id shape count =
        (.error f, { s with views := s.views ++ (List.range n).map fun i => ⟨st.handle, i, false⟩ })
  /-- The values are handed over, once, and are the wrong ones. -/
  failed : ∀ n values f, checkWidth handle count = .ok n →
    shape.arguments ((List.range n).map (s.drawn handle)) = .ok values →
      shape.construct ((List.range n).map (s.drawn handle)) values = .error f →
        s.getColumns id shape count =
          (.error f,
            { s with views := s.views ++ (List.range n).map fun i => ⟨st.handle, i, false⟩ })
  /-- The values are handed over, once, and something is made of them. -/
  built : ∀ n values value, checkWidth handle count = .ok n →
    shape.arguments ((List.range n).map (s.drawn handle)) = .ok values →
      shape.construct ((List.range n).map (s.drawn handle)) values = .ok value →
        s.getColumns id shape count =
          (.ok value, s.keeping st.handle n fun v => value.views.contains v)
  /-- The new views that are kept are all that the record holds, apart from its
      defaults. -/
  held : ∀ n values value, shape.arguments ((List.range n).map (s.drawn handle)) = .ok values →
    shape.construct ((List.range n).map (s.drawn handle)) values = .ok value →
      (shape.defaultViews = [] →
        (List.range' s.views.length n).countP (fun v => value.views.contains v) =
          value.views.length) ∧
      ((∀ v ∈ shape.defaultViews, v < s.views.length) →
        (List.range' s.views.length n).countP (fun v => value.views.contains v) =
          value.views.countP fun v => s.views.length ≤ v)

/-- Wherever commands lead, building a record costs as many shares as the record
    holds of its views, unless the handle has ended and is on a row all the
    same. It is not if nobody uses a handle directly, since a handle that ends
    loses its row and only `setRow` gives it another.

    A failed check costs nothing. After the check a share is taken for each
    column before any is converted, and the handle has one of its own besides.
    So whatever fails in between, giving the others back one by one does not end
    it. -/
theorem record_settled (e : Engine) (s : Session) (reached : Reachable e (fun _ => True) s)
    (id : StatementId) (st : Statement) (handle : Handle)
    (found : s.statement? id = some (st, handle))
    (sound : handle.hasRow = true → handle.finalized = false) (shape : Shape) (count : Int) :
    s.Settles id st handle shape count := by
  have hh := ((statement?_eq_some_iff s id st handle).mp found).2
  -- A check that is passed has found a row.
  have live : ∀ n, checkWidth handle count = .ok n → handle.finalized = false :=
    fun n width => sound (checkWidth_ok handle count n width)
  have funded : ∀ n, checkWidth handle count = .ok n → 0 < handle.shares := fun n width =>
    reachable_funded e _ s reached st.handle handle hh (live n width)
  have opened : ∀ n, checkWidth handle count = .ok n →
      s.getColumns id shape count = (s.newViews st.handle (List.range n)).2.buildRecord shape
        (s.newViews st.handle (List.range n)).1 := by
    intro n width
    simp only [getColumns, found, width]
  -- It does not matter for the shares why no record comes of the columns.
  have fault : ∀ n f, checkWidth handle count = .ok n →
      shape.build ((List.range n).map (s.drawn handle)) = .error f →
        s.getColumns id shape count = (.error f,
          { s with views := s.views ++ (List.range n).map fun i => ⟨st.handle, i, false⟩ }) := by
    intro n f width hbuild
    rw [opened n width, buildRecord, newViews_drawn s st.handle handle hh n, hbuild]
    exact congrArg (Prod.mk _)
      (newViews_given s st.handle handle hh (live n width) (funded n width) n)
  refine ⟨?_, ?_, ?_, ?_, ?_⟩
  · intro f width
    simp only [getColumns, found, width]
  · intro n f width hfail
    refine fault n f width ?_
    rw [Shape.build, hfail]
    rfl
  · intro n values f width hvalues hfail
    refine fault n f width ?_
    rw [Shape.build, hvalues]
    exact hfail
  · intro n values value width hvalues hvalue
    have hbuild : shape.build ((List.range n).map (s.drawn handle)) = .ok value := by
      rw [Shape.build, hvalues]
      exact hvalue
    rw [opened n width, buildRecord, newViews_drawn s st.handle handle hh n, hbuild]
    exact congrArg (Prod.mk _) (newViews_kept s st.handle handle hh (live n width) (funded n width)
      n fun v => value.views.contains v)
  · intro n values value hvalues hvalue
    constructor
    · intro hnone
      rw [countP_made s handle shape n values value hvalues hvalue (fun _ => true) (fun _ _ => rfl)
        (by rw [hnone]; exact fun v hv => absurd hv List.not_mem_nil), List.countP_true]
    · intro older
      refine countP_made s handle shape n values value hvalues hvalue _
        (fun v hv => decide_eq_true hv) ?_
      intro v hv
      exact decide_eq_false (Nat.not_le_of_lt (older v hv))

/-- A record with a field for the column itself, and one for its integer. -/
def paired : List Field :=
  [⟨Text.ofString "id", none, none, true, false⟩,
    ⟨Text.ofString "size", some .integer, some .null, true, false⟩]

/-- The record holds the view of its column, and the handle has one share
    more. -/
theorem record_settled_paired :
    ∃ st handle, (unopened.run .oneRow stepping).2.statement? 0 = some (st, handle) ∧
      handle.finalized = false ∧ handle.shares = 1 ∧
      (unopened.run .oneRow stepping).2.Settles 0 st handle (.fields [] paired) 1 ∧
      ∃ t handle', (unopened.run .oneRow stepping).2.getColumns 0 (.fields [] paired) 1 =
          (.ok (.record [] [(Text.ofString "id", .column 0 0), (Text.ofString "size", .null)]), t) ∧
        t.handles[0]? = some handle' ∧ handle'.shares = 2 := by
  refine ⟨_, _, rfl, rfl, rfl, ?_, _, _, rfl, rfl, rfl⟩
  exact record_settled .oneRow _ (stepping_reachable.mono fun _ _ => trivial) 0 _ _ rfl
    (live_of_hasRow .oneRow _ stepping_reachable 0 _ rfl) (.fields [] paired) 1

/-- A program that closes a statement on a row and sets a row on its handle
    again. -/
def reviving : List Command :=
  [.openDatabase, .prepare (.text []) .empty, .step 0, .closeStatement 0,
    .setRow 0 (some [.integer 7])]

/-- The handle counts no more, so the share of the view that was made is not
    given back. -/
theorem record_unsettled :
    Reachable .oneRow (fun _ => True) (unopened.run .oneRow reviving).2 ∧
    ∃ st handle, (unopened.run .oneRow reviving).2.statement? 0 = some (st, handle) ∧
      handle.finalized = true ∧ handle.shares = 0 ∧ checkWidth handle 1 = .ok 1 ∧
      ∃ t handle', (unopened.run .oneRow reviving).2.getColumns 0 (.scalar .integer) 1 =
          (.ok (.integer 7), t) ∧
        t.handles[0]? = some handle' ∧ handle'.shares = 1 ∧
        ¬ (unopened.run .oneRow reviving).2.Settles 0 st handle (.scalar .integer) 1 := by
  refine ⟨?_, _, _, rfl, rfl, rfl, rfl, _, _, rfl, rfl, rfl, ?_⟩
  · exact reachable_run .oneRow _ reviving unopened (.start [] .standard ⟨.root, []⟩)
      (fun _ _ => trivial)
  · intro h
    have hbuilt := h.built 1 _ _ rfl rfl rfl
    -- The handle would have no share again.
    have hshares := congrArg (fun o : Outcome Value => (o.2.handles[0]?).map Handle.shares) hbuilt
    cases hshares

end Session

end RowScope
