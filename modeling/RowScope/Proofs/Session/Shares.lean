import RowScope.Proofs.Session.Account

/-!
# Shares

The count of a handle is the number of those who hold it: its statement and the
views over it. This holds in whatever order statements and views are made,
closed, released and dropped, and whether or not the database is still open. So
the cursor of a handle is closed by the last holder that leaves, once, and by
nobody else.

Nobody else may take a share, or else the count would say more than there are
holders; hence the commands that use a handle directly are left out here. To be
*backed*, that is to count every holder, is less, and holds even if handles and
views are made without statements.

## Main definitions

* `Command.keepsCounts`: A command that neither takes nor gives back a share of
  nobody.
* `Command.isMediated`: A command that uses no handle directly.
* `Session.Owned`: Every handle was made for the statement of the same identity.
* `Session.Tally`: The count of a handle is right, and its cursor is closed when
  it has to be.

## Theorems

* `reachable_backed`: Every holder is counted.
* `reachable_balanced`: Nothing else is counted.
* `reachable_owners`: Every handle belongs to the statement of the same
  identity.
* `shares_tally`: The counts are right wherever commands lead, and every command
  closes the cursors that it has to.
-/

namespace RowScope

namespace Command

/-- Shares are taken and given back by statements and views only, and rows set
    by statements. -/
def keepsCounts : Command → Prop
  | share _ => False
  | release _ => False
  | setRow _ _ => False
  | _ => True

/-- No handle is made without a statement, and none is used directly for shares,
    rows and views. -/
def isMediated : Command → Prop
  | prepareHandle _ => False
  | share _ => False
  | release _ => False
  | setRow _ _ => False
  | viewOf _ _ => False
  | _ => True

/-- The commands by which a share or the connection is given back. -/
def givesBack : Command → Prop
  | closeDatabase => True
  | closeStatement _ => True
  | releaseView _ => True
  | drop _ => True
  | _ => False

theorem isHeld_of_touches (c : Command) (hc : c.keepsCounts) (s : Session) (a : Touch)
    (ha : c.touches s a) : a.isHeld := by
  -- Only a command of that name gives back a share directly, or sets a row.
  cases a with
  | giveBack h =>
      rw [show c = .release h from ha] at hc
      exact False.elim hc
  | setRow h =>
      rcases ha with ⟨row, rfl⟩
      exact False.elim hc
  | _ => trivial

/-- A command that uses no handle directly makes no move that does. -/
theorem isMediated_of_touches (c : Command) (hc : c.isMediated) (s : Session) (a : Touch)
    (ha : c.touches s a) : a.isMediated := by
  -- Each direct touch has one command that makes it, and that command is not
  -- mediated.
  cases a with
  | handle =>
      rcases ha with ⟨sql, rfl⟩
      exact False.elim hc
  | bareView h =>
      rcases ha with ⟨index, rfl⟩
      exact False.elim hc
  | share h =>
      rw [show c = .share h from ha] at hc
      exact False.elim hc
  | giveBack h =>
      rw [show c = .release h from ha] at hc
      exact False.elim hc
  | setRow h =>
      rcases ha with ⟨row, rfl⟩
      exact False.elim hc
  | _ => trivial

end Command

namespace Session

/-- At the start no handle has a share, or a holder. -/
theorem account_start (path : Text) (config : Config) (here : Path) (h : HandleId) :
    (Session.start path config here).account h = ⟨false, 0, false, false, 0, 0, 0⟩ := rfl

theorem reachable_backed (e : Engine) (s : Session) (hs : Reachable e Command.keepsCounts s)
    (h : HandleId) : (s.account h).Backed := by
  refine reachable_preserves e _ (fun s => (s.account h).Backed) (fun path config here => ?_)
    (fun c s a u w hc ha m hu => ?_) s hs
  · rw [account_start]
    exact ⟨fun _ => Nat.le_refl 0, fun hc => Bool.noConfusion hc, fun _ => ⟨rfl, rfl, rfl⟩⟩
  · -- Each move is an entry, and a permitted one.
    exact (m.entry a u w h).backed a _ _ (c.isHeld_of_touches hc s a ha) hu

/-- Every holder is counted and nothing else is, wherever commands lead that use
    no handle directly. -/
theorem reachable_balanced (e : Engine) (s : Session) (hs : Reachable e Command.isMediated s)
    (h : HandleId) : (s.account h).Balanced := by
  refine reachable_preserves e _ (fun s => (s.account h).Balanced) (fun path config here => ?_)
    (fun c s a u w hc ha m hu => ?_) s hs
  · rw [account_start]
    exact ⟨rfl, fun hc => Bool.noConfusion hc, fun hc => Bool.noConfusion hc, rfl,
      fun _ => ⟨rfl, rfl, rfl⟩⟩
  · exact (m.entry a u w h).balanced a _ _ (c.isMediated_of_touches hc s a ha) hu

/-- Every handle was made for the statement of the same identity. -/
def Owned (s : Session) : Prop :=
  s.statements.map (·.handle) = List.range s.handles.length

/-- A move that uses no handle directly makes a handle with its statement only,
    and then both get the next identity. -/
theorem Owned.move (a : Touch) (s t : Session) (m : Move a s t) (ha : a.isMediated)
    (hs : s.Owned) : t.Owned := by
  unfold Owned at hs ⊢
  rcases m.owners a s t with ⟨hmap, hlen | ⟨rfl, -⟩⟩ | ⟨-, hmap, hlen⟩
  · rw [hmap, hlen, hs]
  · exact False.elim ha
  · -- A new statement has the next identity, and so has its handle.
    rw [hmap, hlen, hs, List.range_succ]

/-- Every handle belongs to the statement of the same identity, wherever
    commands lead that use no handle directly. -/
theorem reachable_owners (e : Engine) (s : Session) (hs : Reachable e Command.isMediated s) :
    s.Owned :=
  reachable_preserves e _ Owned (fun _ _ _ => rfl)
    (fun c s a u w hc ha m hu => hu.move a u w m (c.isMediated_of_touches hc s a ha)) s hs

theorem Owned.handle (s : Session) (hs : s.Owned) (id : StatementId) (st : Statement)
    (hst : s.statements[id]? = some st) : st.handle = id ∧ id < s.handles.length := by
  have hmap : (s.statements.map (·.handle))[id]? = some st.handle := by
    rw [List.getElem?_map, hst]
    rfl
  rw [hs] at hmap
  rcases List.getElem?_eq_some_iff.mp hmap with ⟨hlt, heq⟩
  rw [List.getElem_range] at heq
  rw [List.length_range] at hlt
  exact ⟨heq.symm, hlt⟩

end Session

/-- An engine for which every execution yields one row of one column. -/
def Engine.oneRow : Engine where
  connect _ _ := none
  pragma _ _ := none
  script _ _ := (0, none)
  execute _ _ _ := .ok ⟨some [[]], [.ok [.integer 7]], -1, 0⟩

/-- Counting what occurs at one place at most. -/
theorem countP_eq_of_unique {α : Type} (p : α → Bool) (l : List α) (i : Nat) (x : α)
    (hx : l[i]? = some x) (unique : ∀ j y, l[j]? = some y → p y = true → j = i) :
    l.countP p = if p x then 1 else 0 := by
  induction l generalizing i with
  | nil => exact nomatch hx
  | cons y rest ih =>
      cases i with
      | zero =>
          rw [List.getElem?_cons_zero, Option.some.injEq] at hx
          -- The place is this one, so nothing behind it is counted.
          have hrest : rest.countP p = 0 := by
            rw [List.countP_eq_zero]
            intro z hz hp
            rcases List.mem_iff_getElem?.mp hz with ⟨j, hj⟩
            exact absurd (unique (j + 1) z hj hp) (Nat.succ_ne_zero j)
          rw [List.countP_cons, hrest, hx, Nat.zero_add]
      | succ k =>
          rw [List.getElem?_cons_succ] at hx
          -- The place is further on, so this one is not counted.
          have hy : ¬ p y = true := fun hp => absurd (unique 0 y rfl hp) (Nat.succ_ne_zero k).symm
          rw [List.countP_cons, if_neg hy, Nat.add_zero]
          exact ih k hx (fun j z hj hp => Nat.succ.inj (unique (j + 1) z hj hp))

namespace Session

/-- The count of a handle is right, and the cursor of the handle was closed if
    it had to be. -/
structure Tally (s : Session) (h : HandleId) (handle : Handle) : Prop where
  /-- The handle has one statement. Its shares are that of the statement, unless
      this has given it back, and those of the views that have not. -/
  owner : ∃ st, s.statements[h]? = some st ∧ st.handle = h ∧
    (∀ id other, s.statements[id]? = some other → other.handle = h → id = h) ∧
    handle.shares = (if st.holding then 1 else 0) + s.views.countP (View.holds h)
  ended : handle.finalized = true ↔ handle.shares = 0
  rowless : handle.finalized = true → handle.row = none
  closed : s.calls.countP (Call.closes h) = if handle.shares = 0 then 1 else 0

/-- Accounts that are balanced tally, if every handle belongs to its statement.
    The balance counts statements in general; that it is a question of one
    statement, which holds its share or has given it back, is due to the handle
    having no other. -/
theorem Tally.of_balanced (s : Session) (h : HandleId) (handle : Handle)
    (hh : s.handles[h]? = some handle) (hs : s.Owned) (hb : (s.account h).Balanced) :
    s.Tally h handle := by
  rw [account_of_some s h handle hh] at hb
  rcases hb with ⟨held, ended, rowless, closed, -⟩
  simp only [] at held rowless closed
  have hiff : handle.finalized = true ↔ handle.shares = 0 := ended rfl
  -- There are as many statements as handles, so one is there for this handle.
  have hlt : h < s.statements.length := by
    have hlen := congrArg List.length hs
    rw [List.length_map, List.length_range] at hlen
    rw [hlen]
    exact (List.getElem?_eq_some_iff.mp hh).1
  have hst := List.getElem?_eq_getElem hlt
  have hself := (hs.handle s h _ hst).1
  have hunique : ∀ id other, s.statements[id]? = some other → other.handle = h → id = h :=
    fun id other ho hid => by rw [← (hs.handle s id other ho).1, hid]
  have hcount := countP_eq_of_unique (Statement.holds h) s.statements h _ hst
    (fun id other ho hp => hunique id other ho (by
      simp only [Statement.holds, Bool.and_eq_true, beq_iff_eq] at hp
      exact hp.2))
  -- The statements that hold a share are counted by one, which is there or not.
  refine ⟨⟨_, hst, hself, hunique, ?_⟩, hiff, fun hfin => ?_, ?_⟩
  · rw [held, hcount]
    simp only [Statement.holds, hself, BEq.rfl, Bool.and_true]
  · have hnone := rowless hfin
    rw [Handle.hasRow, Option.isSome_eq_false_iff, Option.isNone_iff_eq_none] at hnone
    exact hnone
  · rw [closed]
    by_cases hzero : handle.shares = 0
    · rw [if_pos hzero, if_pos (hiff.mpr hzero)]
    · rw [if_neg hzero, if_neg (fun hc => hzero (hiff.mp hc))]

theorem reachable_tally (e : Engine) (s : Session) (hs : Reachable e Command.isMediated s)
    (h : HandleId) (handle : Handle) (hh : s.handles[h]? = some handle) : s.Tally h handle :=
  Tally.of_balanced s h handle hh (reachable_owners e s hs) (reachable_balanced e s hs h)

/-- A cursor is refused to be closed only because its connection is closed.
    Nobody who gives back a share learns of it. -/
theorem closeCursor_refused (h : HandleId) (connection : ConnectionId) (s : Session)
    (x : EngineError) (hx : (s.closeCursor h connection).1 = .error x) :
    x.kind = .programming ∧ s.isConnected connection = false := by
  rcases hc : s.isConnected connection with _ | _
  · have heq : (s.closeCursor h connection).1 = .error .closedDatabase := by
      unfold isConnected at hc
      simp only [closeCursor, isConnected, called, hc, Bool.false_eq_true, if_false]
    rw [heq, Except.error.injEq] at hx
    exact ⟨by rw [← hx]; rfl, rfl⟩
  · have heq : (s.closeCursor h connection).1 = .ok () := by
      unfold isConnected at hc
      simp only [closeCursor, isConnected, called, hc, if_true]
    rw [heq] at hx
    exact absurd hx (by simp only [reduceCtorEq, not_false_eq_true])

/-- Wherever commands lead that use no handle directly, the shares of every
    handle are those of its statement and its views. A command closes the cursor
    of a handle if and only if it takes the last share of it, and then once. To
    give back shares, or the connection, never fails: all that the engine can
    object to is that the connection was closed before.

    How often a cursor has been closed is known from the shares at any time. So
    what one command closes is found by comparing before and after, and no
    operation has to be looked at for it. -/
theorem shares_tally (e : Engine) (s : Session) (hs : Reachable e Command.isMediated s) :
    (∀ h handle, s.handles[h]? = some handle → s.Tally h handle) ∧
      (∀ c, c.isMediated → ∀ h handle, s.handles[h]? = some handle →
        ∃ handle' more, (s.perform e c).2.handles[h]? = some handle' ∧
          (s.perform e c).2.calls = s.calls ++ more ∧
          more.countP (Call.closes h) =
            if handle.shares ≠ 0 ∧ handle'.shares = 0 then 1 else 0) ∧
      (∀ c, c.givesBack → (s.perform e c).1.answer = .ok .null) ∧
      ∀ h connection x, (s.closeCursor h connection).1 = .error x →
        x.kind = .programming ∧ s.isConnected connection = false := by
  refine ⟨reachable_tally e s hs, fun c hc h handle hh => ?_, fun c hc => ?_,
    fun h connection x => closeCursor_refused h connection s x⟩
  · have hleads := perform_leads e c s
    rcases hleads.handle_kept h handle hh with ⟨handle', hh', -, -, hfin⟩
    rcases hleads.calls_grow with ⟨more, hmore⟩
    have hbefore := reachable_tally e s hs h handle hh
    have hafter := reachable_tally e _ (hs.perform c hc) h handle' hh'
    have hcalls := hafter.closed
    -- The closings before and after are known from the shares, and the rest are
    -- of this command.
    rw [hmore, List.countP_append, hbefore.closed] at hcalls
    refine ⟨handle', more, hh', hmore, ?_⟩
    by_cases hzero : handle.shares = 0
    · -- A handle without shares is finalized, and stays so.
      have hzero' : handle'.shares = 0 := hafter.ended.mp (hfin (hbefore.ended.mpr hzero))
      rw [if_pos hzero, if_pos hzero'] at hcalls
      rw [if_neg (fun hcon => hcon.1 hzero)]
      omega
    · rw [if_neg hzero, Nat.zero_add] at hcalls
      rw [hcalls]
      simp only [ne_eq, hzero, not_false_eq_true, true_and]
  · cases c with
    | closeDatabase => rfl
    | closeStatement id => rfl
    | releaseView v => rfl
    | drop made => rfl
    | _ => exact False.elim hc

/-- A session with a database that is not open yet. -/
def unopened : Session := .start [] .standard ⟨.root, []⟩

/-- A program that reads a column, closes statement and database, and only then
    gives up the view. -/
def closingFirst : List Command :=
  [.openDatabase, .prepare (.text []) .empty, .step 0, .getColumn 0 (.index 0),
    .closeStatement 0, .closeDatabase, .releaseView 0]

theorem closingFirst_isMediated (c : Command) (hc : c ∈ closingFirst) : c.isMediated := by
  simp only [closingFirst, List.mem_cons, List.not_mem_nil, or_false] at hc
  rcases hc with rfl | rfl | rfl | rfl | rfl | rfl | rfl
  all_goals trivial

/-- The view was the last holder, and the cursor is closed with it, though that
    is refused. -/
theorem shares_tally_closingFirst :
    ∃ handle, (unopened.run .oneRow closingFirst).2.handles[0]? = some handle ∧
      handle.shares = 0 ∧ (unopened.run .oneRow closingFirst).2.Tally 0 handle :=
  ⟨_, rfl, rfl, (shares_tally .oneRow _ (reachable_run .oneRow _ closingFirst _
    (.start [] .standard ⟨.root, []⟩) closingFirst_isMediated)).1 0 _ rfl⟩

end Session

end RowScope
