import RowScope.Proofs.Session.Frame

/-!
# Accounts

What is known about the shares of one handle, as numbers: how many shares it
counts, how many statements and views hold one, how often its cursor was closed.
The account of a handle can be read off a session, and every move is one of a
few entries in it, so that whatever holds of the shares is a matter of
arithmetic.

The count of a handle and the holders of its shares are kept in different
places, and nothing compares them. That they agree is not a property of a single
operation but of all of them together, and it is what makes the last holder the
one that closes the cursor.

A handle that was not made yet has an account as well, in which everything is
zero.

## Main definitions

* `Statement.holds`, `View.holds`, `Call.closes`: What is counted.
* `Account`: The shares of one handle.
* `Session.account`: The account of a handle.
* `Account.less`: One share is given back.
* `Account.Entry`: What a move can do to an account.
* `Account.Backed`: Every holder is counted.
* `Account.Balanced`: Nothing else is counted.

## Theorems

* `release_account`: Giving back a share is the entry `less`.
* `closeStatement_entry`, `releaseView_entry`: A holder gives back its share
  once.
* `Move.entry`: Every move is an entry.
* `Entry.backed`, `Entry.balanced`: Entries keep accounts backed and balanced.
* `Entry.last`: An account that ends has no holders left.
-/

namespace RowScope

/-- A statement holds a share of a handle. -/
def Statement.holds (h : HandleId) (st : Statement) : Bool := st.holding && st.handle == h

/-- A view holds a share of a handle. -/
def View.holds (h : HandleId) (view : View) : Bool := view.holding && view.handle == h

/-- A call closes the cursor of a handle. -/
def Call.closes (h : HandleId) : Call → Bool
  | .finalize h' => h' == h
  | _ => false

/-- The shares of one handle. -/
structure Account where
  /-- The handle was made. -/
  made : Bool
  shares : Nat
  finalized : Bool
  hasRow : Bool
  /-- How many statements hold a share. -/
  statements : Nat
  /-- How many views hold a share. -/
  views : Nat
  /-- How often the cursor was closed. -/
  closings : Nat

/-- The account of a handle. The first four entries are what the handle says of
    itself, and the other three are counted from the outside, in the statements,
    in the views, and in the calls. -/
def Session.account (s : Session) (h : HandleId) : Account where
  made := s.handles[h]?.isSome
  shares := (s.handles[h]?.map (·.shares)).getD 0
  finalized := (s.handles[h]?.map (·.finalized)).getD false
  hasRow := (s.handles[h]?.map (·.hasRow)).getD false
  statements := s.statements.countP (Statement.holds h)
  views := s.views.countP (View.holds h)
  closings := s.calls.countP (Call.closes h)

namespace Account

/-- One share is given back: nothing if the account has ended, the end if no
    other share is left. -/
def less (x : Account) : Account :=
  if x.made = false ∨ x.finalized = true then x
  else if x.shares ≤ 1 then
    { x with shares := 0, finalized := true, hasRow := false, closings := x.closings + 1 }
  else { x with shares := x.shares - 1 }

/-- What a move can do to an account. A holder that leaves is taken from those
    that are counted before the share is given back, as the program does it: a
    statement or a view marks itself first, and calls its handle then. -/
inductive Entry : Touch → Account → Account → Prop
  | keep (a : Touch) (x : Account) : Entry a x x
  | opened (x : Account) (unmade : x.made = false) :
      Entry .prepare x
        { x with made := true, shares := 1, finalized := false, hasRow := false,
                 statements := x.statements + 1 }
  | row (h : HandleId) (x : Account) (r : Bool) (held : 0 < x.statements) :
      Entry (.row h) x { x with hasRow := r }
  | viewed (h : HandleId) (x : Account) (row : x.hasRow = true) :
      Entry (.view h) x { x with shares := x.shares + 1, views := x.views + 1 }
  | closed (id : StatementId) (x : Account) (held : 0 < x.statements) :
      Entry (.close id) x ({ x with statements := x.statements - 1 } : Account).less
  | released (v : ViewId) (x : Account) (held : 0 < x.views) :
      Entry (.release v) x ({ x with views := x.views - 1 } : Account).less
  | bareOpened (x : Account) (unmade : x.made = false) :
      Entry .handle x { x with made := true, shares := 1, finalized := false, hasRow := false }
  | bareViewed (h : HandleId) (x : Account) (made : x.made = true) :
      Entry (.bareView h) x { x with shares := x.shares + 1, views := x.views + 1 }
  | shared (h : HandleId) (x : Account) (made : x.made = true) :
      Entry (.share h) x { x with shares := x.shares + 1 }
  | givenBack (h : HandleId) (x : Account) : Entry (.giveBack h) x x.less
  | rowSet (h : HandleId) (x : Account) (r : Bool) : Entry (.setRow h) x { x with hasRow := r }

/-- Every holder of a share is counted, and an account that has ended has no row
    and no statement; one that was not made has nothing at all. -/
structure Backed (x : Account) : Prop where
  counted : x.finalized = false → x.statements + x.views ≤ x.shares
  ended : x.finalized = true → x.hasRow = false ∧ x.statements = 0
  nothing : x.made = false →
    x.shares = 0 ∧ x.finalized = false ∧ x.hasRow = false

/-- The shares that are counted are the shares that are held, the account ends
    with the last of them, and the cursor is closed then. -/
structure Balanced (x : Account) : Prop where
  held : x.shares = x.statements + x.views
  ended : x.made = true → (x.finalized = true ↔ x.shares = 0)
  rowless : x.finalized = true → x.hasRow = false
  closed : x.closings = if x.finalized then 1 else 0
  nothing : x.made = false →
    x.shares = 0 ∧ x.finalized = false ∧ x.hasRow = false

end Account

/-- Changing one element changes what is counted by what is counted of that
    element. -/
theorem countP_modify {α : Type} (p : α → Bool) (f : α → α) (l : List α) (i : Nat) (x : α)
    (h : l[i]? = some x) :
    (l.modify i f).countP p + (if p x then 1 else 0) =
      l.countP p + (if p (f x) then 1 else 0) := by
  -- A difference of counts would be cut off at zero, so what is counted stands
  -- on both sides.
  induction l generalizing i with
  | nil => exact nomatch h
  | cons y rest ih =>
      cases i with
      | zero =>
          rw [List.getElem?_cons_zero, Option.some.injEq] at h
          rw [List.modify_zero_cons, List.countP_cons, List.countP_cons, h]
          omega
      | succ j =>
          rw [List.getElem?_cons_succ] at h
          have hrest := ih j h
          rw [List.modify_succ_cons, List.countP_cons, List.countP_cons]
          omega

/-- A change that nobody counts. -/
theorem countP_modify_same {α : Type} (p : α → Bool) (f : α → α) (hf : ∀ x, p (f x) = p x)
    (l : List α) (i : Nat) : (l.modify i f).countP p = l.countP p := by
  rcases hx : l[i]? with _ | x
  · rw [modify_eq_self_of]
    intro x hc
    rw [hx] at hc
    exact nomatch hc
  · have heq := countP_modify p f l i x hx
    rw [hf x] at heq
    omega

theorem countP_pos_of_getElem? {α : Type} (p : α → Bool) (l : List α) (i : Nat) (x : α)
    (h : l[i]? = some x) (hp : p x = true) : 0 < l.countP p :=
  List.countP_pos_iff.mpr ⟨x, List.mem_of_getElem? h, hp⟩

namespace Session

theorem account_of_some (s : Session) (h : HandleId) (x : Handle) (hh : s.handles[h]? = some x) :
    s.account h = ⟨true, x.shares, x.finalized, x.hasRow, s.statements.countP (Statement.holds h),
      s.views.countP (View.holds h), s.calls.countP (Call.closes h)⟩ := by
  simp only [account, hh, Option.isSome_some, Option.map_some, Option.getD_some]

theorem account_unmade (s : Session) (h : HandleId) (hh : s.handles[h]? = none) :
    (s.account h).made = false := by
  simp only [account, hh, Option.isSome_none]

/-- An account depends on what is counted, and on the handle itself. -/
theorem account_congr (s t : Session) (h : HandleId) (handles : t.handles[h]? = s.handles[h]?)
    (statements : t.statements.countP (Statement.holds h) = s.statements.countP (Statement.holds h))
    (views : t.views.countP (View.holds h) = s.views.countP (View.holds h))
    (calls : t.calls.countP (Call.closes h) = s.calls.countP (Call.closes h)) :
    t.account h = s.account h := by
  simp only [account, handles, statements, views, calls]

theorem account_onHandle_other (s : Session) (h h' : HandleId) (f : Handle → Handle)
    (hne : h ≠ h') : (s.onHandle h f).account h' = s.account h' := by
  refine account_congr _ _ h' ?_ rfl rfl rfl
  show (s.handles.modify h f)[h']? = s.handles[h']?
  rw [List.getElem?_modify_ne f _ hne]

theorem account_onHandle_self (s : Session) (h : HandleId) (f : Handle → Handle) (x : Handle)
    (hh : s.handles[h]? = some x) :
    (s.onHandle h f).account h =
      { s.account h with shares := (f x).shares, finalized := (f x).finalized,
                         hasRow := (f x).hasRow } := by
  have hmodify := getElem?_modify_of_some s.handles f h h x hh
  rw [if_pos rfl] at hmodify
  rw [account_of_some s h x hh, account_of_some (s.onHandle h f) h (f x) hmodify]
  rfl

theorem onHandle_missing (s : Session) (h : HandleId) (f : Handle → Handle)
    (hh : s.handles[h]? = none) : s.onHandle h f = s := by
  unfold onHandle
  rw [modify_eq_self_of]
  intro x hx
  rw [hh] at hx
  exact nomatch hx

/-- Setting a row is no more than that, and nothing if there is no such
    handle. -/
theorem account_setRow (s : Session) (h h' : HandleId) (row : Option Row) :
    (s.setRow h row).account h' = s.account h' ∨
      h = h' ∧ (s.setRow h row).account h' = { s.account h' with hasRow := row.isSome } := by
  unfold setRow
  rcases hx : s.handles[h]? with _ | x
  · rw [onHandle_missing s h _ hx]
    exact Or.inl rfl
  · by_cases heq : h = h'
    · subst heq
      refine Or.inr ⟨rfl, ?_⟩
      rw [account_onHandle_self s h _ x hx, account_of_some s h x hx]
      rfl
    · exact Or.inl (account_onHandle_other s h h' _ heq)

/-- Giving back a share of a handle is an entry in its account, and in no other.
    What was given back is decided by the count of the handle alone, and nobody
    looks at who holds the shares, so `less` does not depend on the holders
    either. -/
theorem release_account (h h' : HandleId) (s : Session) :
    (s.release h).account h' = if h = h' then (s.account h').less else s.account h' := by
  rcases hx : s.handles[h]? with _ | x
  · rw [release_missing h s hx]
    by_cases heq : h = h'
    · have hmade : (s.account h').made = false := account_unmade s h' (by rw [← heq]; exact hx)
      rw [if_pos heq, Account.less, if_pos (Or.inl hmade)]
    · rw [if_neg heq]
  · have hacc := account_of_some s h x hx
    rcases release_cases h s x hx with ⟨hfin, hs, hc⟩ | ⟨hfin, hlt, hs, hc⟩ |
      ⟨hfin, hle, hc, f, hs, hf⟩
    · -- Ignored: not even the count changes.
      have hsame : (s.release h).account h' = s.account h' := by
        refine account_congr _ _ h' (by rw [hs]) ?_ ?_ (by rw [hc])
        · rw [release_statements]
        · rw [release_views]
      rw [hsame]
      by_cases heq : h = h'
      · rw [← heq, if_pos rfl, hacc, Account.less, if_pos (Or.inr hfin)]
      · rw [if_neg heq]
    · -- Another share is left: the count is all that changes.
      have hsame : (s.release h).account h' =
          (s.onHandle h (fun x => { x with shares := x.shares - 1 })).account h' := by
        refine account_congr _ _ h' (by rw [hs]; rfl) ?_ ?_ (by rw [hc]; rfl)
        · rw [release_statements]
          rfl
        · rw [release_views]
          rfl
      rw [hsame]
      by_cases heq : h = h'
      · rw [← heq, if_pos rfl, account_onHandle_self s h _ x hx, hacc, Account.less,
          if_neg (by simp only [hfin, Bool.true_eq_false, Bool.false_eq_true, or_self,
            not_false_eq_true]), if_neg (by simp only [Nat.not_le]; exact hlt)]
        rfl
      · rw [if_neg heq, account_onHandle_other s h h' _ heq]
    · -- The last share: the call that closes the cursor is counted for this
      -- handle only.
      have hstatements : (s.release h).statements = s.statements := release_statements h s
      have hviews : (s.release h).views = s.views := release_views h s
      by_cases heq : h = h'
      · have hmodify := getElem?_modify_of_some s.handles f h h x hx
        rw [if_pos rfl, ← hs] at hmodify
        rcases hf x with ⟨hshares, hfinal, hrow, -⟩
        have hone : [Call.finalize h].countP (Call.closes h) = 1 := by
          simp only [Call.closes, List.countP_cons, List.countP_nil, BEq.rfl, if_true]
        rw [← heq, if_pos rfl, hacc, Account.less,
          if_neg (by simp only [hfin, Bool.true_eq_false, Bool.false_eq_true, or_self,
            not_false_eq_true]), if_pos hle, account_of_some _ h (f x) hmodify, hstatements, hviews,
          hshares, hfinal, Handle.hasRow, hrow, hc, List.countP_append, hone]
        rfl
      · have hzero : [Call.finalize h].countP (Call.closes h') = 0 := by
          rw [List.countP_singleton, if_neg]
          simp only [Call.closes, beq_iff_eq]
          exact heq
        rw [if_neg heq]
        refine account_congr _ _ h' ?_ (by rw [hstatements]) (by rw [hviews]) ?_
        · rw [hs, List.getElem?_modify_ne f _ heq]
        · rw [hc, List.countP_append, hzero, Nat.add_zero]

/-- What a statement changes of itself is not counted, unless it is its handle
    or its share. -/
theorem account_onStatement_same (s : Session) (id : StatementId) (f : Statement → Statement)
    (kept : ∀ st, (f st).handle = st.handle ∧ (f st).holding = st.holding) (h : HandleId) :
    (s.onStatement id f).account h = s.account h := by
  refine account_congr _ _ h rfl ?_ rfl rfl
  refine countP_modify_same _ f (fun st => ?_) s.statements id
  simp only [Statement.holds, (kept st).1, (kept st).2]

/-- A statement that gives back its share is no longer counted. -/
theorem account_idleStatement (s : Session) (id : StatementId) (st : Statement)
    (hst : s.statements[id]? = some st) (hh : st.holding = true) :
    0 < (s.account st.handle).statements ∧
      (s.onStatement id fun st => { st with holding := false }).account st.handle =
        { s.account st.handle with statements := (s.account st.handle).statements - 1 } := by
  have hp : Statement.holds st.handle st = true := by
    simp only [Statement.holds, hh, BEq.rfl, Bool.and_self]
  have hcount := countP_modify (Statement.holds st.handle) (fun st => { st with holding := false })
    s.statements id st hst
  rw [if_pos hp, if_neg Bool.noConfusion] at hcount
  refine ⟨countP_pos_of_getElem? _ _ id st hst hp, ?_⟩
  simp only [account, onStatement, Account.mk.injEq, true_and, and_true]
  exact Nat.eq_sub_of_add_eq hcount

theorem account_idleStatement_other (s : Session) (id : StatementId) (st : Statement)
    (hst : s.statements[id]? = some st) (h : HandleId) (hne : st.handle ≠ h) :
    (s.onStatement id fun st => { st with holding := false }).account h = s.account h := by
  refine account_congr _ _ h rfl ?_ rfl rfl
  have hcount := countP_modify (Statement.holds h) (fun st => { st with holding := false })
    s.statements id st hst
  have hp : Statement.holds h st = false := by
    simp only [Statement.holds, beq_eq_false_iff_ne.mpr hne, Bool.and_false]
  rw [hp] at hcount
  exact hcount

/-- A view that gives back its share is no longer counted. -/
theorem account_idleView (s : Session) (v : ViewId) (view : View)
    (hv : s.views[v]? = some view) (hh : view.holding = true) :
    0 < (s.account view.handle).views ∧
      (s.onView v fun view => { view with holding := false }).account view.handle =
        { s.account view.handle with views := (s.account view.handle).views - 1 } := by
  have hp : View.holds view.handle view = true := by
    simp only [View.holds, hh, BEq.rfl, Bool.and_self]
  have hcount := countP_modify (View.holds view.handle) (fun view => { view with holding := false })
    s.views v view hv
  rw [if_pos hp, if_neg Bool.noConfusion] at hcount
  refine ⟨countP_pos_of_getElem? _ _ v view hv hp, ?_⟩
  simp only [account, onView, Account.mk.injEq, true_and, and_true]
  exact Nat.eq_sub_of_add_eq hcount

theorem account_idleView_other (s : Session) (v : ViewId) (view : View)
    (hv : s.views[v]? = some view) (h : HandleId) (hne : view.handle ≠ h) :
    (s.onView v fun view => { view with holding := false }).account h = s.account h := by
  refine account_congr _ _ h rfl rfl ?_ rfl
  have hcount := countP_modify (View.holds h) (fun view => { view with holding := false })
    s.views v view hv
  have hp : View.holds h view = false := by
    simp only [View.holds, beq_eq_false_iff_ne.mpr hne, Bool.and_false]
  rw [hp] at hcount
  exact hcount

/-- A share that is taken directly is counted by the handle, but nobody holds
    it. -/
theorem account_share (s : Session) (h : HandleId) (x : Handle) (hh : s.handles[h]? = some x) :
    (s.share h).account h = { s.account h with shares := (s.account h).shares + 1 } := by
  rw [share, account_onHandle_self s h _ x hh, account_of_some s h x hh]
  rfl

/-- A view that is made takes a share, and is counted. -/
theorem account_newView (s : Session) (h : HandleId) (index : Int) (x : Handle)
    (hh : s.handles[h]? = some x) :
    (s.newView h index).2.account h =
      { s.account h with
        shares := (s.account h).shares + 1, views := (s.account h).views + 1 } := by
  have hshare := account_share s h x hh
  have hviews : (s.newView h index).2.views.countP (View.holds h) =
      s.views.countP (View.holds h) + 1 := by
    show (s.views ++ [_]).countP (View.holds h) = _
    rw [List.countP_append]
    simp only [View.holds, List.countP_cons, List.countP_nil, BEq.rfl, Bool.and_self, if_true]
  have hrest : (s.newView h index).2.account h =
      { (s.share h).account h with
        views := (s.newView h index).2.views.countP (View.holds h) } := rfl
  rw [hrest, hshare, hviews]
  rfl

/-- A view that is made is counted for its own handle only. -/
theorem account_newView_other (s : Session) (h h' : HandleId) (index : Int) (hne : h ≠ h') :
    (s.newView h index).2.account h' = s.account h' := by
  rw [← account_onHandle_other s h h' (fun x => { x with shares := x.shares + 1 }) hne]
  refine account_congr _ _ h' rfl rfl ?_ rfl
  show (s.views ++ [_]).countP (View.holds h') = _
  rw [List.countP_append, List.countP_singleton, if_neg, Nat.add_zero]
  · rfl
  · simp only [View.holds, beq_eq_false_iff_ne.mpr hne, Bool.and_false, Bool.false_eq_true,
      not_false_eq_true]

/-- A handle that is made counts one share, and nobody holds it yet. -/
theorem account_newHandle (s : Session) (connection : ConnectionId) (sql : Sql) (h : HandleId) :
    (s.newHandle connection sql).2.account h =
      if h = s.handles.length then
        { s.account h with made := true, shares := 1, finalized := false, hasRow := false }
      else s.account h := by
  by_cases heq : h = s.handles.length
  · have hnew : (s.newHandle connection sql).2.handles[h]? =
        some (Handle.fresh connection sql) := by
      rw [heq]
      exact List.getElem?_concat_length
    rw [if_pos heq, account_of_some _ h _ hnew]
    rfl
  · -- Another identity finds what it found: a handle made earlier, or still
    -- nothing, the list having grown by one place only.
    rw [if_neg heq]
    refine account_congr _ _ h ?_ rfl rfl rfl
    show (s.handles ++ [_])[h]? = s.handles[h]?
    rcases Nat.lt_or_gt_of_ne heq with hlt | hgt
    · rw [List.getElem?_append_left hlt]
    · rw [List.getElem?_eq_none (Nat.le_of_lt hgt), List.getElem?_eq_none]
      rw [List.length_append, List.length_singleton]
      omega

/-- A statement that is made holds the only share of a handle of its own. -/
theorem account_newStatement (s : Session) (connection : ConnectionId) (sql : Sql)
    (params : Params) (h : HandleId) :
    (s.newStatement connection sql params).2.account h =
      if h = s.handles.length then
        { s.account h with made := true, shares := 1, finalized := false, hasRow := false,
                           statements := (s.account h).statements + 1 }
      else s.account h := by
  -- The new statement is counted for its handle and for no other.
  have hcount : (s.newStatement connection sql params).2.account h =
      { (s.newHandle connection sql).2.account h with
        statements := (s.account h).statements + if s.handles.length = h then 1 else 0 } := by
    simp only [newStatement, newHandle, account, Statement.holds, List.countP_append,
      List.countP_singleton, Bool.true_and, beq_iff_eq]
  rw [hcount, account_newHandle]
  by_cases heq : h = s.handles.length
  · rw [if_pos heq, if_pos heq, if_pos heq.symm]
  · rw [if_neg heq, if_neg heq, if_neg (fun hc => heq hc.symm)]
    rfl

/-- A call is counted if it closes a cursor, which comes with a share that is
    given back. -/
theorem account_called (s : Session) (c : Call) (open_ : ∀ h, c ≠ .finalize h) (h : HandleId) :
    (s.called c).account h = s.account h := by
  have hzero : [c].countP (Call.closes h) = 0 := by
    cases c with
    | finalize h' => exact absurd rfl (open_ h')
    | _ => rfl
  refine account_congr _ _ h rfl rfl rfl ?_
  rw [called, List.countP_append, hzero, Nat.add_zero]

/-- What becomes of a cursor is not counted. -/
theorem account_onCursor (s : Session) (h h' : HandleId) (f : Cursor → Cursor) :
    (s.onHandle h (Handle.onCursor f)).account h' = s.account h' := by
  rcases hx : s.handles[h]? with _ | x
  · rw [onHandle_missing s h _ hx]
  · by_cases heq : h = h'
    · rw [← heq, account_onHandle_self s h _ x hx, account_of_some s h x hx]
      rfl
    · exact account_onHandle_other s h h' _ heq

/-- The next handle is not made yet. -/
theorem account_next (s : Session) : (s.account s.handles.length).made = false :=
  s.account_unmade _ (List.getElem?_eq_none (Nat.le_refl _))

/-! #### Operations as entries -/

section

variable (s : Session) (h : HandleId)

theorem newStatement_entry (connection : ConnectionId) (sql : Sql) (params : Params) :
    Account.Entry .prepare (s.account h) ((s.newStatement connection sql params).2.account h) := by
  rw [account_newStatement]
  by_cases heq : h = s.handles.length
  · rw [if_pos heq, heq]
    exact .opened _ s.account_next
  · rw [if_neg heq]
    exact .keep _ _

theorem newHandle_entry (connection : ConnectionId) (sql : Sql) :
    Account.Entry .handle (s.account h) ((s.newHandle connection sql).2.account h) := by
  rw [account_newHandle]
  by_cases heq : h = s.handles.length
  · rw [if_pos heq, heq]
    exact .bareOpened _ s.account_next
  · rw [if_neg heq]
    exact .keep _ _

/-- A statement that sets the row is one of the holders of its handle. -/
theorem setRow_entry {id : StatementId} {st : Statement} (row : Option Row)
    (found : s.statements[id]? = some st) (holding : st.holding = true) :
    Account.Entry (.row st.handle) (s.account h) ((s.setRow st.handle row).account h) := by
  rcases s.account_setRow st.handle h row with heq | ⟨hid, heq⟩
  · rw [heq]
    exact .keep _ _
  · have hheld := (s.account_idleStatement id st found holding).1
    rw [heq]
    rw [hid] at hheld ⊢
    exact .row h _ _ hheld

/-- A statement gives back its share once. If it has none left, nothing is
    done. -/
theorem closeStatement_entry (id : StatementId) :
    Account.Entry (.close id) (s.account h) ((s.closeStatement id).account h) := by
  rcases closeStatement_cases id s with ⟨heq, _⟩ | ⟨st, hst, hh, heq⟩
  · rw [heq]
    exact .keep _ _
  · rw [heq, release_account]
    by_cases hid : st.handle = h
    · rcases s.account_idleStatement id st hst hh with ⟨hheld, hidle⟩
      rw [if_pos hid, ← hid, hidle]
      exact .closed id _ hheld
    · rw [if_neg hid, s.account_idleStatement_other id st hst h hid]
      exact .keep _ _

/-- So does a view. -/
theorem releaseView_entry (v : ViewId) :
    Account.Entry (.release v) (s.account h) ((s.releaseView v).account h) := by
  rcases releaseView_cases v s with ⟨heq, _⟩ | ⟨view, hv, hh, heq⟩
  · rw [heq]
    exact .keep _ _
  · rw [heq, release_account]
    by_cases hid : view.handle = h
    · rcases s.account_idleView v view hv hh with ⟨hheld, hidle⟩
      rw [if_pos hid, ← hid, hidle]
      exact .released v _ hheld
    · rw [if_neg hid, s.account_idleView_other v view hv h hid]
      exact .keep _ _

theorem share_entry (h' : HandleId) :
    Account.Entry (.share h') (s.account h) ((s.share h').account h) := by
  rcases hx : s.handles[h']? with _ | x
  · rw [share, onHandle_missing s h' _ hx]
    exact .keep _ _
  · by_cases heq : h' = h
    · rw [heq] at hx
      rw [heq, s.account_share h x hx]
      exact .shared h _ (by rw [s.account_of_some h x hx])
    · rw [share, s.account_onHandle_other h' h _ heq]
      exact .keep _ _

end

end Session

/-- Every move is an entry in the account of every handle. For all handles but
    at most one, the entry is the one in which nothing changes. This is the only
    place where the moves are looked at as changes of a session; from here on
    they are changes of seven entries. -/
theorem Move.entry (a : Touch) (s t : Session) (m : Move a s t) (h : HandleId) :
    Account.Entry a (s.account h) (t.account h) := by
  cases m with
  -- Nothing that is counted changes.
  | aside handles statements views calls =>
      rw [Session.account_congr s t h (by rw [handles]) (by rw [statements]) (by rw [views])
        (by rw [calls])]
      exact .keep _ _
  | call c open_ =>
      rw [s.account_called c open_ h]
      exact .keep _ _
  | cursor h' f =>
      rw [s.account_onCursor h' h f]
      exact .keep _ _
  | flags id f kept =>
      rw [s.account_onStatement_same id f (fun st => ⟨(kept st).1, (kept st).2.1⟩) h]
      exact .keep _ _
  | @places _ id st handle found empty names =>
      rw [s.account_onStatement_same id
        (fun st => { st with places := some (firstPlaces handle.columnNames) })
        (fun _ => ⟨rfl, rfl⟩) h]
      exact .keep _ _
  -- A handle is made, a row set, or a share taken or given back.
  | prepare connection sql params => exact s.newStatement_entry h connection sql params
  | @view _ h' handle index found row =>
      by_cases heq : h' = h
      · rw [heq] at found
        rw [heq, s.account_newView h index handle found]
        exact .viewed h _ (by rw [s.account_of_some h handle found]; exact row)
      · rw [s.account_newView_other h' h index heq]
        exact .keep _ _
  | @row _ id st row found holding => exact s.setRow_entry h row found holding
  | close id => exact s.closeStatement_entry h id
  | release v => exact s.releaseView_entry h v
  -- The same for handles that are used directly.
  | handle connection sql => exact s.newHandle_entry h connection sql
  | @bareView _ h' handle index found =>
      by_cases heq : h' = h
      · rw [heq] at found
        rw [heq, s.account_newView h index handle found]
        exact .bareViewed h _ (by rw [s.account_of_some h handle found])
      · rw [s.account_newView_other h' h index heq]
        exact .keep _ _
  | share h' => exact s.share_entry h h'
  | giveBack h' =>
      rw [Session.release_account]
      by_cases heq : h' = h
      · rw [if_pos heq]
        exact .givenBack h' _
      · rw [if_neg heq]
        exact .keep _ _
  | setRow h' row =>
      rcases s.account_setRow h' h row with heq | ⟨_, heq⟩
      · rw [heq]
        exact .keep _ _
      · rw [heq]
        exact .rowSet h' _ _

namespace Touch

/-- No share is given back and no row set but by a holder. -/
def isHeld : Touch → Prop
  | giveBack _ => False
  | setRow _ => False
  | _ => True

/-- No handle is used but by its statement, and views of it are made by that
    only. -/
def isMediated : Touch → Prop
  | handle => False
  | bareView _ => False
  | share _ => False
  | giveBack _ => False
  | setRow _ => False
  | _ => True

end Touch

namespace Account

/-- What comes of giving back a share: it is ignored, or it ends the account, or
    it is one share less. -/
theorem less_cases (x : Account) :
    (x.made = false ∨ x.finalized = true) ∧ x.less = x ∨
      x.made = true ∧ x.finalized = false ∧ x.shares ≤ 1 ∧
        x.less = { x with shares := 0, finalized := true, hasRow := false,
                          closings := x.closings + 1 } ∨
      x.made = true ∧ x.finalized = false ∧ 1 < x.shares ∧
        x.less = { x with shares := x.shares - 1 } := by
  unfold less
  by_cases hend : x.made = false ∨ x.finalized = true
  · rw [if_pos hend]
    exact Or.inl ⟨hend, rfl⟩
  · rw [if_neg hend]
    rw [not_or, Bool.not_eq_false, Bool.not_eq_true] at hend
    by_cases hle : x.shares ≤ 1
    · rw [if_pos hle]
      exact Or.inr (Or.inl ⟨hend.1, hend.2, hle, rfl⟩)
    · rw [if_neg hle]
      exact Or.inr (Or.inr ⟨hend.1, hend.2, Nat.lt_of_not_le hle, rfl⟩)

/-- An account stays backed if one of its holders has left and its share is
    given back. If that share was the last, then all shares were at most one,
    and since every holder is counted there can have been no other holder but
    the one that has left. -/
theorem Backed.less {x y : Account} (hx : x.Backed) (made : y.made = x.made)
    (shares : y.shares = x.shares) (finalized : y.finalized = x.finalized)
    (hasRow : y.hasRow = x.hasRow) (statements : y.statements ≤ x.statements)
    (left : y.statements + y.views < x.statements + x.views) : y.less.Backed := by
  rcases less_cases y with ⟨-, heq⟩ | ⟨hmade, hfin, hle, heq⟩ | ⟨hmade, hfin, hlt, heq⟩
  · rw [heq]
    refine ⟨fun hfin => ?_, fun hfin => ?_, fun hmade => ?_⟩
    · have hcounted := hx.counted (by rw [← finalized]; exact hfin)
      omega
    · rcases hx.ended (by rw [← finalized]; exact hfin) with ⟨hrow, hzero⟩
      exact ⟨by rw [hasRow, hrow], by omega⟩
    · rw [shares, finalized, hasRow]
      exact hx.nothing (by rw [← made]; exact hmade)
  · -- At most one share was left, so the holder that has left was the only one.
    have hcounted := hx.counted (by rw [← finalized]; exact hfin)
    rw [heq]
    refine ⟨fun hc => Bool.noConfusion hc, fun _ => ⟨rfl, by simp only []; omega⟩, fun hc => ?_⟩
    exact absurd hc (by rw [hmade]; exact Bool.noConfusion)
  · have hcounted := hx.counted (by rw [← finalized]; exact hfin)
    rw [heq]
    refine ⟨fun _ => by simp only []; omega, fun hc => ?_, fun hc => ?_⟩
    · exact absurd hc (by rw [hfin]; exact Bool.noConfusion)
    · exact absurd hc (by rw [hmade]; exact Bool.noConfusion)

/-- An account stays balanced if one of its holders has left and its share is
    given back. There was somebody to leave, so the account had not ended, the
    share is really given back, and the two sides go down together. -/
theorem Balanced.less {x y : Account} (hx : x.Balanced) (made : y.made = x.made)
    (shares : y.shares = x.shares) (finalized : y.finalized = x.finalized)
    (closings : y.closings = x.closings)
    (left : y.statements + y.views + 1 = x.statements + x.views) : y.less.Balanced := by
  -- Somebody was there to leave, so the account had neither ended nor not
  -- begun.
  have hheld := hx.held
  have hmade : y.made = true := by
    rcases hm : y.made with _ | _
    · have hzero := (hx.nothing (by rw [← made]; exact hm)).1
      omega
    · rfl
  have hfin : y.finalized = false := by
    rcases hf : y.finalized with _ | _
    · rfl
    · have hzero := (hx.ended (by rw [← made]; exact hmade)).mp (by rw [← finalized]; exact hf)
      omega
  have hclosed : y.closings = 0 := by
    rw [closings, hx.closed, ← finalized, hfin]
    rfl
  rcases less_cases y with ⟨hend, -⟩ | ⟨-, -, hle, heq⟩ | ⟨-, -, hlt, heq⟩
  · rw [hmade, hfin] at hend
    exact absurd hend (by decide)
  · rw [heq]
    refine ⟨by simp only []; omega, fun _ => ⟨fun _ => rfl, fun _ => rfl⟩, fun _ => rfl, ?_, ?_⟩
    · simp only [hclosed, if_true]
    · exact fun hc => absurd hc (by rw [hmade]; exact Bool.noConfusion)
  · rw [heq]
    refine ⟨by simp only []; omega, fun _ => ⟨fun hc => ?_, fun hc => ?_⟩, fun hc => ?_, ?_, ?_⟩
    · exact absurd hc (by rw [hfin]; exact Bool.noConfusion)
    · simp only [] at hc
      omega
    · exact absurd hc (by rw [hfin]; exact Bool.noConfusion)
    · simp only [hclosed, hfin, Bool.false_eq_true, if_false]
    · exact fun hc => absurd hc (by rw [hmade]; exact Bool.noConfusion)

namespace Entry

/-- Entries keep an account backed as long as only holders give back shares and
    set rows. Somebody who holds nothing and gives back a share takes it from
    one who holds it, and with that the count is too low. -/
theorem backed (a : Touch) (x y : Account) (he : Entry a x y) (ha : a.isHeld) (hx : x.Backed) :
    y.Backed := by
  cases he with
  | keep => exact hx
  | opened _ unmade =>
      rcases hx.nothing unmade with ⟨hshares, hfin, -⟩
      have hcounted := hx.counted hfin
      exact ⟨fun _ => by simp only []; omega, fun hc => Bool.noConfusion hc,
        fun hc => Bool.noConfusion hc⟩
  | row h _ r held =>
      -- The holder that sets the row is counted, so the account has not ended.
      refine ⟨hx.counted, fun hfin => ?_, fun hmade => ?_⟩
      · have hzero := (hx.ended hfin).2
        omega
      · rcases hx.nothing hmade with ⟨hshares, hfin, -⟩
        have hcounted := hx.counted hfin
        omega
  | viewed h _ row =>
      -- A row is there, so the account has begun and not ended.
      refine ⟨fun hfin => ?_, fun hfin => ?_, fun hmade => ?_⟩
      · have hcounted := hx.counted hfin
        simp only []
        omega
      · exact absurd (hx.ended hfin).1 (by rw [row]; exact Bool.noConfusion)
      · exact absurd (hx.nothing hmade).2.2 (by rw [row]; exact Bool.noConfusion)
  | closed id _ held => exact hx.less rfl rfl rfl rfl (Nat.sub_le _ _) (by simp only []; omega)
  | released v _ held => exact hx.less rfl rfl rfl rfl (Nat.le_refl _) (by simp only []; omega)
  | bareOpened _ unmade =>
      rcases hx.nothing unmade with ⟨hshares, hfin, -⟩
      have hcounted := hx.counted hfin
      exact ⟨fun _ => by simp only []; omega, fun hc => Bool.noConfusion hc,
        fun hc => Bool.noConfusion hc⟩
  | bareViewed h _ made =>
      refine ⟨fun hfin => ?_, hx.ended, fun hmade => ?_⟩
      · have hcounted := hx.counted hfin
        simp only []
        omega
      · exact absurd hmade (by rw [made]; exact Bool.noConfusion)
  | shared h _ made =>
      refine ⟨fun hfin => ?_, hx.ended, fun hmade => ?_⟩
      · have hcounted := hx.counted hfin
        simp only []
        omega
      · exact absurd hmade (by rw [made]; exact Bool.noConfusion)
  | givenBack h => exact False.elim ha
  | rowSet h => exact False.elim ha

/-- Entries keep an account balanced as long as no handle is used but by its
    statement. A share that is taken directly would be counted and held by
    nobody, and the account could not end with its last holder. -/
theorem balanced (a : Touch) (x y : Account) (he : Entry a x y) (ha : a.isMediated)
    (hx : x.Balanced) : y.Balanced := by
  have hheld := hx.held
  cases he with
  | keep => exact hx
  | opened _ unmade =>
      rcases hx.nothing unmade with ⟨hshares, hfin, -⟩
      have hclosed := hx.closed
      rw [hfin] at hclosed
      exact ⟨by simp only []; omega, fun _ => by simp only [Bool.false_eq_true, Nat.one_ne_zero],
        fun hc => Bool.noConfusion hc, hclosed, fun hc => Bool.noConfusion hc⟩
  -- A row appears or goes only for a statement that holds a share, so there is
  -- a share, and the handle is made and not finalized.
  | row h _ r held =>
      refine ⟨hx.held, hx.ended, fun hfin => ?_, hx.closed, fun hmade => ?_⟩
      · rcases hm : x.made with _ | _
        · have hzero := (hx.nothing hm).1
          omega
        · have hzero := (hx.ended hm).mp hfin
          omega
      · have hzero := (hx.nothing hmade).1
        omega
  | viewed h _ row =>
      refine ⟨by simp only []; omega, fun hmade => ⟨fun hfin => ?_, fun hc => ?_⟩, hx.rowless,
        hx.closed, fun hmade => ?_⟩
      · exact absurd (hx.rowless hfin) (by rw [row]; exact Bool.noConfusion)
      · exact absurd hc (Nat.succ_ne_zero _)
      · exact absurd (hx.nothing hmade).2.2 (by rw [row]; exact Bool.noConfusion)
  | closed id _ held => exact hx.less rfl rfl rfl rfl (by simp only []; omega)
  | released v _ held => exact hx.less rfl rfl rfl rfl (by simp only []; omega)
  -- These are the direct ones, which have no holder to count.
  | bareOpened _ unmade => exact False.elim ha
  | bareViewed h _ made => exact False.elim ha
  | shared h _ made => exact False.elim ha
  | givenBack h => exact False.elim ha
  | rowSet h => exact False.elim ha

/-- A backed account ends only when its last holder has left. An end that comes
    sooner would need a count of one with two holders. -/
theorem last (a : Touch) (x y : Account) (he : Entry a x y) (ha : a.isHeld) (hx : x.Backed)
    (before : x.finalized = false) (after : y.finalized = true) : y.statements + y.views = 0 := by
  have hcounted := hx.counted before
  -- Only the two entries in which somebody leaves can be the end.
  have hless : ∀ z : Account, z.finalized = x.finalized → z.shares = x.shares →
      z.statements + z.views < x.statements + x.views → z.less.finalized = true →
      z.less.statements + z.less.views = 0 := by
    intro z hfin hshares hlt hend
    rcases less_cases z with ⟨-, heq⟩ | ⟨-, -, hle, heq⟩ | ⟨-, -, -, heq⟩
    · rw [heq, hfin, before] at hend
      exact Bool.noConfusion hend
    · rw [heq]
      simp only []
      omega
    · rw [heq] at hend
      simp only [hfin, before, Bool.false_eq_true] at hend
  cases he with
  | closed id _ held => exact hless _ rfl rfl (by simp only []; omega) after
  | released v _ held => exact hless _ rfl rfl (by simp only []; omega) after
  | opened _ _ => exact Bool.noConfusion after
  | bareOpened _ _ => exact Bool.noConfusion after
  | givenBack h => exact False.elim ha
  | rowSet h => exact False.elim ha
  | _ => exact absurd after (by simp only [before, Bool.false_eq_true, not_false_eq_true])

end Entry

end Account

end RowScope
