import RowScope.Proofs.Session.Move

/-!
# Footprints

What each operation of a session touches. The footprint of an operation is a
condition on touches, and the operation leads from the session before it to the
session after it by moves within its footprint. That is one lemma for each
operation.

A footprint names only what was there before the operation. What an operation
makes for itself, as the statement of a query for one value or the views of a
record, it may treat as it likes; such objects are told by their identities,
which are not below the numbers of objects before it.

The statement that an operation steps is touched only if it is open. That is why
the footprint of a step depends on the session, and why a step that is refused
has none.

## Main definitions

* `Session.Drives`: An open statement with its handle.
* `Touch.ofCursor`, `Touch.ofStep`, `Touch.ofLookup`, `Touch.ofReading`,
  `Touch.ofQuery`, `Touch.ofDatabase`: Footprints of operations.

## Theorems

* `step_leads`, `reset_leads`: Stepping stays within the statement, if that is
  open.
* `getColumn_leads`, `getColumns_leads`: Reading makes views and fills a name
  table.
* `locate_ok`, `locate_key`: What a key is located at, if it is.
* `queryFirst_leads`: A query for one value uses a statement of its own.
-/

namespace RowScope

/-- The handle whose cursor a call is made on, for the calls that are made on
    one. -/
def Call.handle? : Call → Option HandleId
  | .execute h _ _ => some h
  | .fetch h => some h
  | .finalize h => some h
  | _ => none

namespace Session

/-- A statement is open, and this is its handle. -/
def Drives (s : Session) (id : StatementId) (h : HandleId) : Prop :=
  ∃ st, s.statements[id]? = some st ∧ st.holding = true ∧ st.handle = h

end Session

namespace Touch

/-- The footprint of the use of a cursor. -/
def ofCursor (h : HandleId) : Touch → Prop
  | aside => True
  | call c => c.handle? = some h
  | cursor h' => h' = h
  | _ => False

/-- The footprint of a step of a statement, or of a reset: nothing if the
    statement is closed. -/
def ofStep (s : Session) (id : StatementId) : Touch → Prop
  | aside => True
  | call c => ∃ h, c.handle? = some h ∧ s.Drives id h
  | cursor h => s.Drives id h
  | row h => s.Drives id h
  | flags id' => id' = id
  | _ => False

/-- The footprint of looking up a key: an index is not looked up. -/
def ofLookup (id : StatementId) (key : Key) : Touch → Prop
  | places id' => id' = id ∧ ∃ name, key = .name name
  | _ => False

/-- The footprint of reading columns by views that are made for it, where `n`
    views were there before. -/
def ofReading (n : Nat) (id : StatementId) (key : Key) : Touch → Prop
  | places id' => id' = id ∧ ∃ name, key = .name name
  | view _ => True
  | release v => n ≤ v
  | _ => False

/-- The footprint of a query for one value, where so many handles, statements
    and views were there before. -/
def ofQuery (s : Session) : Touch → Prop
  | aside => True
  | prepare => True
  | call c => ∀ h, c.handle? = some h → s.handles.length ≤ h
  | cursor h => s.handles.length ≤ h
  | row h => s.handles.length ≤ h
  | flags id => s.statements.length ≤ id
  | close id => s.statements.length ≤ id
  | view _ => True
  | release v => s.views.length ≤ v
  | _ => False

/-- The footprint of what concerns the database: calls, but none on a cursor. -/
def ofDatabase : Touch → Prop
  | aside => True
  | call c => c.handle? = none
  | _ => False

end Touch

namespace Session

/-- What was refused has no value. -/
theorem refused_ne_ok {α : Type} {f : Fault} {x : α} {s t : Session} :
    ((.error f, s) : Outcome α) ≠ (.ok x, t) := by
  simp only [ne_eq, Prod.mk.injEq, reduceCtorEq, false_and, not_false_eq_true]

/-! ### Stepping -/

/-- What changes neither the objects nor the calls is a single move, as are
    notes and the moves of the engine itself. -/
theorem leads_aside (P : Touch → Prop) (hP : P .aside) (s t : Session)
    (handles : t.handles = s.handles) (statements : t.statements = s.statements)
    (views : t.views = s.views) (calls : t.calls = s.calls) : s.Leads P t :=
  Leads.one .aside hP (.aside handles statements views calls)

theorem leads_called (P : Touch → Prop) (c : Call) (hP : P (.call c)) (hopen : ∀ h, c ≠ .finalize h)
    (s : Session) : s.Leads P (s.called c) :=
  Leads.one (.call c) hP (.call c hopen)

/-- Executing on a cursor is a call on it and a change of it, however it ends.
    The call is there even if the cursor refuses it, and the old result goes
    before the engine answers. -/
theorem executeCursor_leads (e : Engine) (h : HandleId) (handle : Handle) (sql : Sql)
    (params : Params) (s : Session) :
    s.Leads (Touch.ofCursor h) (s.executeCursor e h handle sql params).2 := by
  have hcall : s.Leads (Touch.ofCursor h) (s.called (.execute h sql params)) :=
    leads_called (Touch.ofCursor h) (.execute h sql params) rfl (fun _ => Call.noConfusion) s
  -- The call counts as made even if the cursor refuses it.
  unfold executeCursor
  simp only []
  split
  · exact hcall
  · -- The last result is forgotten before the engine answers, so a failure
    -- leaves none.
    have hclear := hcall.trans (Leads.one (.cursor h) rfl (.cursor h Cursor.cleared))
    have hask := hclear.trans (leads_aside (Touch.ofCursor h) trivial _
      (((s.called (.execute h sql params)).onHandle h (Handle.onCursor Cursor.cleared)).asked
        (.execute sql params)) rfl rfl rfl rfl)
    split
    · exact hask
    · rename_i a _
      have hhold := hask.trans (Leads.one (.cursor h) rfl (.cursor h (Cursor.holding · a)))
      exact hhold.trans (leads_aside (Touch.ofCursor h) trivial _ _ rfl rfl rfl rfl)

theorem fetchCursor_leads (h : HandleId) (s : Session) :
    s.Leads (Touch.ofCursor h) (s.fetchCursor h).2 := by
  have hcall : s.Leads (Touch.ofCursor h) (s.called (.fetch h)) :=
    leads_called (Touch.ofCursor h) (.fetch h) rfl (fun _ => Call.noConfusion) s
  unfold fetchCursor
  simp only []
  split
  · exact hcall
  · split
    · exact hcall
    · exact hcall.trans (Leads.one (.cursor h) rfl (.cursor h _))

theorem ofStep_of_ofCursor (s : Session) (id : StatementId) (h : HandleId) (hd : s.Drives id h)
    (a : Touch) (ha : Touch.ofCursor h a) : Touch.ofStep s id a := by
  cases a with
  | aside => trivial
  | call c => exact ⟨h, ha, hd⟩
  | cursor h' =>
      rw [show h' = h from ha]
      exact hd
  | _ => exact False.elim ha

/-- A step leaves the statement open if it was. What closes a statement is its
    own end only, and that is not in the footprint, so the guards that need an
    open statement hold all the way. -/
theorem Drives.after {s t : Session} {id : StatementId} {h : HandleId} (hd : s.Drives id h)
    (hl : s.Leads (Touch.ofStep s id) t) : t.Drives id h := by
  rcases hd with ⟨st, hst, hh, rfl⟩
  rcases hl.statement_kept id st hst with ⟨st', hst', hh', hs', -⟩
  exact ⟨st', hst', by rw [hs' (fun hc => hc), hh], hh'⟩

/-- In the course of a step the row of the statement may be set: the statement
    is still open, and that is the guard of the move. -/
theorem leads_setRow (s t : Session) (id : StatementId) (h : HandleId) (row : Option Row)
    (hd : s.Drives id h) (hl : s.Leads (Touch.ofStep s id) t) :
    s.Leads (Touch.ofStep s id) (t.setRow h row) := by
  rcases hd.after hl with ⟨st, hst, hh, rfl⟩
  exact hl.trans (Leads.one (.row st.handle) hd (.row row hst hh))

/-- To begin is to execute, if the statement has not begun, and to remember that
    it has. -/
theorem begin_leads (e : Engine) (id : StatementId) (st : Statement) (s : Session)
    (hd : s.Drives id st.handle) :
    s.Leads (Touch.ofStep s id) (s.begin e id st).2 := by
  unfold begin
  split
  · exact Leads.refl _ s
  · -- The first step of a statement executes it.
    split
    · exact Leads.refl _ s
    · rename_i handle _
      have hnote : s.Leads (Touch.ofStep s id) (s.noted (.executing st.sql)) :=
        leads_aside _ trivial s _ rfl rfl rfl rfl
      have hexec := hnote.trans ((executeCursor_leads e st.handle handle st.sql st.params
        (s.noted (.executing st.sql))).mono (ofStep_of_ofCursor s id st.handle hd))
      split
      · rename_i heq
        rw [heq] at hexec
        exact hexec
      · rename_i heq
        rw [heq] at hexec
        exact hexec.trans (Leads.one (.flags id) rfl (.flags id _ (fun _ => ⟨rfl, rfl, rfl⟩)))

theorem stepFailed_leads (h : HandleId) (x : EngineError) (s t : Session) (id : StatementId)
    (hd : s.Drives id h) (hl : s.Leads (Touch.ofStep s id) t) :
    s.Leads (Touch.ofStep s id) (t.stepFailed h x).2 := by
  unfold stepFailed
  by_cases hx : x.isDatabaseFailure = true
  · rw [if_pos hx]
    exact leads_setRow s t id h none hd hl
  · rw [if_neg hx]
    exact hl

theorem arrive_leads (h : HandleId) (fetched : Option Row) (s t : Session) (id : StatementId)
    (hd : s.Drives id h) (hl : s.Leads (Touch.ofStep s id) t) :
    s.Leads (Touch.ofStep s id) (Session.arrive id h fetched t).2 := by
  cases fetched with
  -- No row: the result has ended, and the statement remembers it.
  | none =>
      exact (leads_setRow s t id h none hd hl).trans
        (Leads.one (.flags id) rfl (.flags id _ (fun _ => ⟨rfl, rfl, rfl⟩)))
  | some row => exact leads_setRow s t id h (some row) hd hl

/-- A step touches its statement, and that only if it is open. The three parts
    of a step are put together here: it begins, it fetches, and what was fetched
    arrives or what failed is reported. -/
theorem step_leads (e : Engine) (id : StatementId) (s : Session) :
    s.Leads (Touch.ofStep s id) (s.step e id).2 := by
  unfold step
  split
  · exact Leads.refl _ s
  · rename_i st hst
    rcases hh : st.holding with _ | _
    · simp only [Bool.not_false, if_true]
      exact Leads.refl _ s
    · -- The statement stays open on the way, so the guard of a row holds
      -- wherever it is set.
      have hd : s.Drives id st.handle := ⟨st, hst, hh, rfl⟩
      have hbegin := begin_leads e id st s hd
      simp only [Bool.not_true, Bool.false_eq_true, if_false]
      split
      · exact Leads.refl _ s
      · split
        · rename_i x t heq
          rw [heq] at hbegin
          exact stepFailed_leads st.handle x s t id hd hbegin
        · rename_i t heq
          rw [heq] at hbegin
          have hfetch := hbegin.trans
            ((fetchCursor_leads st.handle t).mono (ofStep_of_ofCursor s id st.handle hd))
          split
          · rename_i x u hu
            rw [hu] at hfetch
            exact stepFailed_leads st.handle x s u id hd hfetch
          · rename_i fetched u hu
            rw [hu] at hfetch
            exact arrive_leads st.handle fetched s u id hd hfetch

/-- To execute to the end is to step once, as far as the session is
    concerned. -/
theorem exec_state (e : Engine) (id : StatementId) (s : Session) :
    (s.exec e id).2 = (s.step e id).2 := by
  unfold exec
  -- What is refused here is refused after the step.
  rcases s.step e id with ⟨answer, t⟩
  rcases answer with f | more
  · rfl
  · cases more with
    | true => rfl
    | false =>
        simp only []
        split
        · rfl
        · rfl

/-- A reset clears the row and the flags of its statement, if the statement is
    open. -/
theorem reset_leads (id : StatementId) (params : Option Params) (s : Session) :
    s.Leads (Touch.ofStep s id) (s.reset id params).2 := by
  unfold reset
  split
  · exact Leads.refl _ s
  · rename_i st hst
    rcases hh : st.holding with _ | _
    · simp only [Bool.not_false, if_true]
      exact Leads.refl _ s
    · have hd : s.Drives id st.handle := ⟨st, hst, hh, rfl⟩
      have hnote : s.Leads (Touch.ofStep s id) (s.noted (.resetting st.sql)) :=
        leads_aside _ trivial s _ rfl rfl rfl rfl
      simp only [Bool.not_true, Bool.false_eq_true, if_false]
      -- The row goes first, then the flags.
      exact (leads_setRow s _ id st.handle none hd hnote).trans
        (Leads.one (.flags id) rfl (.flags id _ (fun _ => ⟨rfl, rfl, rfl⟩)))

/-! ### Reading -/

/-- Looking for a name fills the name table at most, and only if it is not
    filled and there are columns to name. -/
theorem placesOf_leads (id : StatementId) (st : Statement) (handle : Handle) (name : Text)
    (s : Session) (hs : s.statement? id = some (st, handle)) :
    s.Leads (Touch.ofLookup id (.name name)) (s.placesOf id st handle).2 := by
  unfold placesOf
  split
  · exact Leads.refl _ s
  · rename_i hplaces
    split
    · exact Leads.refl _ s
    · -- No table and columns to name: only now the table is filled.
      rename_i hne
      exact Leads.one (.places id) ⟨rfl, name, rfl⟩ (.places hs hplaces hne)

/-- Looking for a name changes the name table at most. -/
theorem placesOf_beside (id : StatementId) (st : Statement) (handle : Handle) (s : Session) :
    (s.placesOf id st handle).2.handles = s.handles ∧
      (s.placesOf id st handle).2.views = s.views := by
  unfold placesOf
  split
  · exact ⟨rfl, rfl⟩
  · split
    · exact ⟨rfl, rfl⟩
    · exact ⟨rfl, rfl⟩

/-- Whether the name is found makes no difference to the session. -/
theorem placeOf_state (id : StatementId) (st : Statement) (handle : Handle) (name : Text)
    (s : Session) : (s.placeOf id st handle name).2 = (s.placesOf id st handle).2 := by
  unfold placeOf
  rcases s.placesOf id st handle with ⟨places | places, t⟩
  · rfl
  · simp only []
    split
    · rfl
    · rfl

/-- Only a name is looked up, and only while there is a row. Otherwise locating
    a key leaves the session as it is. -/
theorem locate_state (id : StatementId) (st : Statement) (handle : Handle) (key : Key)
    (s : Session) :
    (s.locate id st handle key).2 = s ∨
      (∃ name, key = .name name) ∧ (s.locate id st handle key).2 = (s.placesOf id st handle).2 := by
  unfold locate
  split
  · exact Or.inl rfl
  · cases key with
    -- An index is checked, and that is all.
    | index i =>
        simp only []
        split
        · exact Or.inl rfl
        · exact Or.inl rfl
    | name name =>
        refine Or.inr ⟨⟨name, rfl⟩, ?_⟩
        rw [← placeOf_state id st handle name s]
        rcases hp : s.placeOf id st handle name with ⟨found | found, t⟩
        · simp only [hp]
        · simp only [hp]
          split
          · rfl
          · rfl

/-- What was located lies within the result, and a row is current. It does not
    matter where the number came from: a place from the name table is checked
    like an index, since the table may be older than the result. -/
theorem locate_ok (id : StatementId) (st : Statement) (handle : Handle) (key : Key)
    (s t : Session) (i : Int) (h : s.locate id st handle key = (.ok i, t)) :
    handle.hasRow = true ∧ 0 ≤ i ∧ i < handle.columnCount := by
  unfold locate at h
  split at h
  · exact absurd h refused_ne_ok
  · rename_i hrow
    refine ⟨by simpa only [Bool.not_eq_true', Bool.not_eq_false] using hrow, ?_⟩
    simp only [] at h
    -- Whether the key is an index or a name, the number found is checked last.
    split at h
    · exact absurd h refused_ne_ok
    · rename_i j u _
      split at h
      · exact absurd h refused_ne_ok
      · rename_i hcheck
        simp only [Prod.mk.injEq, Except.ok.injEq] at h
        rw [← h.1]
        unfold checkIndex at hcheck
        split at hcheck
        · exact absurd hcheck (by simp only [reduceCtorEq, not_false_eq_true])
        · omega

/-- What was located is the index itself, or the place of the name. -/
theorem locate_key (id : StatementId) (st : Statement) (handle : Handle) (key : Key)
    (s t : Session) (i : Int) (h : s.locate id st handle key = (.ok i, t)) :
    key = .index i ∨
      ∃ name n, key = .name name ∧ (s.placeOf id st handle name).1 = .ok n ∧ i = n := by
  unfold locate at h
  split at h
  · exact absurd h refused_ne_ok
  · cases key with
    | index j =>
        simp only [] at h
        split at h
        · exact absurd h refused_ne_ok
        · simp only [Prod.mk.injEq, Except.ok.injEq] at h
          exact Or.inl (by rw [h.1])
    | name name =>
        -- The place that a name has is checked against the row like an index,
        -- and then is the answer.
        rcases hp : s.placeOf id st handle name with ⟨f | n, u⟩
        · simp only [hp] at h
          exact absurd h refused_ne_ok
        · simp only [hp] at h
          split at h
          · exact absurd h refused_ne_ok
          · simp only [Prod.mk.injEq, Except.ok.injEq] at h
            exact Or.inr ⟨name, n, rfl, by rw [hp], h.1.symm⟩

theorem locate_leads (id : StatementId) (st : Statement) (handle : Handle) (key : Key)
    (s : Session) (hs : s.statement? id = some (st, handle)) :
    s.Leads (Touch.ofLookup id key) (s.locate id st handle key).2 := by
  rcases locate_state id st handle key s with heq | ⟨⟨name, rfl⟩, heq⟩
  · rw [heq]
    exact Leads.refl _ s
  · rw [heq]
    exact placesOf_leads id st handle name s hs

theorem locate_beside (id : StatementId) (st : Statement) (handle : Handle) (key : Key)
    (s : Session) :
    (s.locate id st handle key).2.handles = s.handles ∧
      (s.locate id st handle key).2.views = s.views := by
  rcases locate_state id st handle key s with heq | ⟨-, heq⟩
  · rw [heq]
    exact ⟨rfl, rfl⟩
  · rw [heq]
    exact placesOf_beside id st handle s

theorem columnIndex_leads (id : StatementId) (name : Text) (s : Session) :
    s.Leads (Touch.ofLookup id (.name name)) (s.columnIndex id name).2 := by
  unfold columnIndex
  split
  · exact Leads.refl _ s
  · rename_i st handle hs
    rw [placeOf_state]
    exact placesOf_leads id st handle name s hs

theorem ofReading_of_ofLookup (n : Nat) (id : StatementId) (key : Key) (a : Touch)
    (ha : Touch.ofLookup id key a) : Touch.ofReading n id key a := by
  cases a with
  | places id' => exact ha
  | _ => exact False.elim ha

/-- A view that was made is the next one, and it looks at a column of the
    current row. -/
theorem getColumn_ok (id : StatementId) (key : Key) (s t : Session) (v : ViewId)
    (h : s.getColumn id key = (.ok v, t)) :
    ∃ st handle u i, s.statement? id = some (st, handle) ∧
      s.locate id st handle key = (.ok i, u) ∧ v = s.views.length ∧
      t = (u.newView st.handle i).2 := by
  unfold getColumn at h
  split at h
  · exact absurd h refused_ne_ok
  · rename_i st handle hs
    have hbeside := (locate_beside id st handle key s).2
    split at h
    · exact absurd h refused_ne_ok
    · rename_i i u hl
      rw [hl] at hbeside
      simp only [Prod.mk.injEq, Except.ok.injEq] at h
      refine ⟨st, handle, u, i, hs, hl, ?_, h.2.symm⟩
      rw [← h.1, ← hbeside]
      rfl

/-- To get a column is to locate its key and to make a view. The view needs a
    row, and the row that locating has found is still there, since locating
    changes no handle. -/
theorem getColumn_leads (n : Nat) (id : StatementId) (key : Key) (s : Session) :
    s.Leads (Touch.ofReading n id key) (s.getColumn id key).2 := by
  unfold getColumn
  split
  · exact Leads.refl _ s
  · rename_i st handle hs
    have hlocate := (locate_leads id st handle key s hs).mono (ofReading_of_ofLookup n id key)
    have hbeside := (locate_beside id st handle key s).1
    split
    · rename_i hl
      rw [hl] at hlocate
      exact hlocate
    · rename_i i t hl
      rw [hl] at hlocate hbeside
      -- The lookup leaves the handle as it is, and the row that it asked for is
      -- still there.
      have hfound : t.handles[st.handle]? = some handle := by
        rw [hbeside]
        exact ((statement?_eq_some_iff s id st handle).mp hs).2
      have hrow := (locate_ok id st handle key s t i hl).1
      exact hlocate.trans (Leads.one (.view st.handle) trivial (.view i hfound hrow))

/-- To ask whether a column is null makes no view, so it is no more than
    locating the key. -/
theorem isColumnNull_leads (id : StatementId) (key : Key) (s : Session) :
    s.Leads (Touch.ofLookup id key) (s.isColumnNull id key).2 := by
  unfold isColumnNull
  split
  · exact Leads.refl _ s
  · rename_i st handle hs
    have hlocate := locate_leads id st handle key s hs
    split
    · rename_i hl
      rw [hl] at hlocate
      exact hlocate
    · rename_i hl
      rw [hl] at hlocate
      exact hlocate

theorem readOnce_leads {α : Type} (P : Touch → Prop) (v : ViewId) (hv : P (.release v))
    (read : Column → Except Fault α) (s : Session) : s.Leads P (s.readOnce v read).2 := by
  unfold readOnce
  split
  · exact Leads.refl _ s
  · exact Leads.one (.release v) hv (.release v)

/-- To peek at a column is to make a view, to read it and to release it. The
    view was not there before, so it is not one that the footprint has to leave
    alone. -/
theorem peek_leads (n : Nat) (id : StatementId) (key : Key) (read : Column → Except Fault Value)
    (s : Session) (hn : n ≤ s.views.length) :
    s.Leads (Touch.ofReading n id key) (s.peek id key read).2 := by
  have hget := getColumn_leads n id key s
  unfold peek
  split
  · rename_i heq
    rw [heq] at hget
    exact hget
  · rename_i v t heq
    rw [heq] at hget
    -- The view that is read and released is the one just made.
    rcases getColumn_ok id key s t v heq with ⟨_, _, _, _, _, _, hv, _⟩
    exact hget.trans (readOnce_leads (Touch.ofReading n id key) v
      (show n ≤ v by rw [hv]; exact hn) read t)

/-- Reading several columns makes and releases one view for each. The bound on
    the views is that of the beginning, and the views only become more, so it
    holds all along the run. -/
theorem cellsAt_leads (n : Nat) (id : StatementId) (is : List Nat) (s : Session)
    (hn : n ≤ s.views.length) :
    s.Leads (Touch.ofReading n id (.index 0)) (s.cellsAt id is).2 := by
  induction is generalizing s with
  | nil => exact Leads.refl _ s
  | cons i rest ih =>
      -- All keys are indices, so one of them describes every footprint of the
      -- run.
      have hpeek := (peek_leads n id (.index i) storedValue s hn).mono
        (Q := Touch.ofReading n id (.index 0)) (fun a ha => by
          cases a with
          | places id' =>
              rcases ha with ⟨_, name, hc⟩
              exact Key.noConfusion hc
          | _ => exact ha)
      unfold cellsAt
      split
      · rename_i heq
        rw [heq] at hpeek
        exact hpeek
      · rename_i value t heq
        rw [heq] at hpeek
        have hrest := hpeek.trans (ih t (Nat.le_trans hn hpeek.views_le))
        split
        · rename_i hr
          rw [hr] at hrest
          exact hrest
        · rename_i hr
          rw [hr] at hrest
          exact hrest

/-- Reading all columns makes and releases one view for each. -/
theorem cells_leads (id : StatementId) (s : Session) :
    s.Leads (Touch.ofReading s.views.length id (.index 0)) (s.cells id).2 := by
  unfold cells
  split
  · exact Leads.refl _ s
  · rename_i handle _
    have hcells := cellsAt_leads s.views.length id (List.range handle.columnCount) s (Nat.le_refl _)
    split
    · rename_i heq
      rw [heq] at hcells
      exact hcells
    · rename_i heq
      rw [heq] at hcells
      exact hcells

/-! ### Records -/

/-- Views that are made in order are the next ones. -/
theorem newViews_fresh (h : HandleId) (is : List Nat) (s : Session) :
    ∀ v ∈ (s.newViews h is).1, s.views.length ≤ v := by
  induction is generalizing s with
  | nil =>
      intro v hv
      exact absurd hv List.not_mem_nil
  | cons i rest ih =>
      intro v hv
      rcases List.mem_cons.mp hv with rfl | hrest
      · exact Nat.le_refl _
      · have hle := ih (s.newView h i).2 v hrest
        have hlen : (s.newView h i).2.views.length = s.views.length + 1 :=
          List.length_append
        omega

/-- Making views one after the other needs the row of the handle each time, and
    a share more does not take it away. -/
theorem newViews_leads (P : Touch → Prop) (h : HandleId) (hP : P (.view h)) (is : List Nat)
    (s : Session) (handle : Handle) (hh : s.handles[h]? = some handle)
    (hrow : handle.hasRow = true) : s.Leads P (s.newViews h is).2 := by
  induction is generalizing s handle with
  | nil => exact Leads.refl P s
  | cons i rest ih =>
      have hone : s.Leads P (s.newView h i).2 := Leads.one (.view h) hP (.view i hh hrow)
      -- One more view is one more share, and the row stays.
      refine hone.trans (ih (s.newView h i).2 { handle with shares := handle.shares + 1 } ?_ hrow)
      have hmodify := getElem?_modify_of_some s.handles
        (fun x => { x with shares := x.shares + 1 }) h h handle hh
      rw [if_pos rfl] at hmodify
      exact hmodify

theorem releaseViews_leads (P : Touch → Prop) (vs : List ViewId) (hP : ∀ v ∈ vs, P (.release v))
    (s : Session) : s.Leads P (s.releaseViews vs) := by
  induction vs generalizing s with
  | nil => exact Leads.refl P s
  | cons v rest ih =>
      have hone : s.Leads P (s.releaseView v) :=
        Leads.one (.release v) (hP v List.mem_cons_self) (.release v)
      exact hone.trans (ih (fun w hw => hP w (List.mem_cons_of_mem v hw)) (s.releaseView v))

/-- Building a record gives back views that were made for it, at most. -/
theorem buildRecord_leads (P : Touch → Prop) (shape : Shape) (ids : List ViewId)
    (hP : ∀ v ∈ ids, P (.release v)) (s : Session) : s.Leads P (s.buildRecord shape ids).2 := by
  unfold buildRecord
  split
  · exact releaseViews_leads P ids hP s
  · -- A record of columns keeps the views that it shows.
    exact releaseViews_leads P _ (fun v hv => hP v (List.mem_filter.mp hv).1) s

theorem checkWidth_ok (handle : Handle) (count : Int) (n : Nat)
    (h : checkWidth handle count = .ok n) : handle.hasRow = true := by
  unfold checkWidth at h
  split at h
  · exact absurd h (by simp only [reduceCtorEq, not_false_eq_true])
  · split at h
    · exact absurd h (by simp only [reduceCtorEq, not_false_eq_true])
    · rename_i hrow
      simpa only [Bool.not_eq_true', Bool.not_eq_false] using hrow

/-- Getting a record makes views, and gives back views that were made for it. -/
theorem getColumns_leads (id : StatementId) (shape : Shape) (count : Int) (s : Session) :
    s.Leads (Touch.ofReading s.views.length id (.index 0)) (s.getColumns id shape count).2 := by
  unfold getColumns
  split
  · exact Leads.refl _ s
  · rename_i st handle hs
    split
    · exact Leads.refl _ s
    · rename_i n hwidth
      have hviews := newViews_leads (Touch.ofReading s.views.length id (.index 0)) st.handle
        trivial (List.range n) s handle ((statement?_eq_some_iff s id st handle).mp hs).2
        (checkWidth_ok handle count n hwidth)
      exact hviews.trans (buildRecord_leads _ shape _ (newViews_fresh st.handle (List.range n) s) _)

/-! ### Databases -/

/-- Running a pragma is a call, and a note if it fails. -/
theorem runPragma_leads (e : Engine) (sql : Text) (s : Session) :
    s.Leads Touch.ofDatabase (s.runPragma e sql).2 := by
  have hcall : s.Leads Touch.ofDatabase (s.called (.pragma sql)) :=
    leads_called Touch.ofDatabase (.pragma sql) rfl (fun _ => Call.noConfusion) s
  have hask := hcall.trans (leads_aside Touch.ofDatabase trivial _
    ((s.called (.pragma sql)).asked (.pragma sql)) rfl rfl rfl rfl)
  unfold runPragma
  simp only []
  split
  · exact hask
  · split
    · exact hask.trans (leads_aside Touch.ofDatabase trivial _ _ rfl rfl rfl rfl)
    · exact hask

/-- Running pragmas is a call for each that is run. -/
theorem runPragmas_leads (e : Engine) (sqls : List Text) (s : Session) :
    s.Leads Touch.ofDatabase (s.runPragmas e sqls).2 := by
  induction sqls generalizing s with
  | nil => exact Leads.refl _ s
  | cons sql rest ih =>
      have hone := runPragma_leads e sql s
      unfold runPragmas
      split
      · rename_i heq
        rw [heq] at hone
        exact hone
      · rename_i t heq
        rw [heq] at hone
        exact hone.trans (ih t)

/-- Connecting is a call, and then one for each pragma. The connection becomes
    the database's own only after them, but connections are neither handles nor
    statements nor views, so all of this is beside the objects of the
    session. -/
theorem connect_leads (e : Engine) (target : Text) (uri : Bool) (s : Session) :
    s.Leads Touch.ofDatabase (s.connect e target uri).2 := by
  have hcall : s.Leads Touch.ofDatabase
      (s.called (.connect target s.database.config.timeout uri)) :=
    leads_called Touch.ofDatabase (.connect target s.database.config.timeout uri) rfl
      (fun _ => Call.noConfusion) s
  have hask := hcall.trans (leads_aside Touch.ofDatabase trivial _
    ((s.called (.connect target s.database.config.timeout uri)).asked (.connect target uri))
    rfl rfl rfl rfl)
  unfold connect
  simp only []
  -- Without a connection there is no more than the call.
  split
  · exact hask
  · -- The new connection is nobody's yet.
    generalize hu : ({ (s.called (.connect target s.database.config.timeout uri)).asked
      (.connect target uri) with connections := _ } : Session) = u
    have hmade : s.Leads Touch.ofDatabase u := by
      rw [← hu]
      exact hask.trans (leads_aside Touch.ofDatabase trivial _ _ rfl rfl rfl rfl)
    split
    · exact hmade
    · rename_i sqls _
      have hpragmas := hmade.trans (runPragmas_leads e sqls u)
      split
      · rename_i heq
        rw [heq] at hpragmas
        exact hpragmas
      · rename_i heq
        rw [heq] at hpragmas
        exact hpragmas.trans (leads_aside Touch.ofDatabase trivial _ _ rfl rfl rfl rfl)

theorem openDatabase_leads (e : Engine) (s : Session) :
    s.Leads Touch.ofDatabase (s.openDatabase e).2 := by
  unfold openDatabase
  split
  · exact Leads.refl _ s
  · split
    · exact Leads.refl _ s
    · rename_i target uri _
      exact connect_leads e target uri s

/-- Closing a database touches none of the objects of the session: its
    statements are not closed with it. -/
theorem closeDatabase_leads (s : Session) : s.Leads Touch.ofDatabase s.closeDatabase := by
  unfold closeDatabase
  split
  · exact Leads.refl _ s
  · rename_i c _
    have hcall : s.Leads Touch.ofDatabase (s.called (.disconnect c)) :=
      leads_called Touch.ofDatabase (.disconnect c) rfl (fun _ => Call.noConfusion) s
    exact hcall.trans (leads_aside Touch.ofDatabase trivial _ _ rfl rfl rfl rfl)

theorem script_leads (e : Engine) (sql : Text) (s : Session) :
    s.Leads Touch.ofDatabase (s.script e sql).2 := by
  unfold script
  split
  · exact Leads.refl _ s
  · have hcall : s.Leads Touch.ofDatabase (s.called (.script sql)) :=
      leads_called Touch.ofDatabase (.script sql) rfl (fun _ => Call.noConfusion) s
    simp only []
    split
    · exact hcall.trans (leads_aside Touch.ofDatabase trivial _ _ rfl rfl rfl rfl)
    · exact hcall.trans (leads_aside Touch.ofDatabase trivial _ _ rfl rfl rfl rfl)

/-! ### Queries -/

theorem prepare_leads (P : Touch → Prop) (hP : P .prepare) (sql : Sql) (params : Params)
    (s : Session) : s.Leads P (s.prepare sql params).2 := by
  unfold prepare
  split
  · exact Leads.refl P s
  · rename_i c _
    exact Leads.one .prepare hP (.prepare c sql params)

/-- What was prepared is the next statement, and it holds the next handle. -/
theorem prepare_ok (sql : Sql) (params : Params) (s t : Session) (id : StatementId)
    (h : s.prepare sql params = (.ok id, t)) :
    id = s.statements.length ∧ ∃ c, t = (s.newStatement c sql params).2 := by
  unfold prepare at h
  split at h
  · exact absurd h refused_ne_ok
  · rename_i c _
    simp only [Prod.mk.injEq, Except.ok.injEq] at h
    exact ⟨h.1.symm, c, h.2.symm⟩

/-- A statement that was just prepared drives a handle that was not there
    before. -/
theorem drives_newStatement (connection : ConnectionId) (sql : Sql) (params : Params) (s : Session)
    (h : HandleId)
    (hd : (s.newStatement connection sql params).2.Drives s.statements.length h) :
    s.handles.length ≤ h := by
  rcases hd with ⟨st, hst, -, rfl⟩
  rcases of_getElem?_concat _ _ _ _ hst with ⟨-, rfl⟩ | hold
  · exact Nat.le_refl _
  · -- No older statement has this identity.
    exact absurd (List.getElem?_eq_some_iff.mp hold).1 (Nat.lt_irrefl _)

/-- A query may step a statement of its own, if that drives none of the handles
    that were there. -/
theorem ofQuery_of_ofStep (s t : Session) (id : StatementId) (hid : s.statements.length ≤ id)
    (hfresh : ∀ h, t.Drives id h → s.handles.length ≤ h) (a : Touch)
    (ha : Touch.ofStep t id a) : Touch.ofQuery s a := by
  cases a with
  | aside => trivial
  | call c =>
      intro h hc
      rcases ha with ⟨h', hc', hd⟩
      rw [hc', Option.some.injEq] at hc
      rw [← hc]
      exact hfresh h' hd
  | cursor h => exact hfresh h ha
  | row h => exact hfresh h ha
  | flags id' =>
      rw [show id' = id from ha] at *
      exact hid
  | _ => exact False.elim ha

theorem ofQuery_of_ofReading (s : Session) (n : Nat) (hn : s.views.length ≤ n) (id : StatementId)
    (i : Int) (a : Touch) (ha : Touch.ofReading n id (.index i) a) : Touch.ofQuery s a := by
  cases a with
  | places id' =>
      rcases ha with ⟨_, name, hc⟩
      exact Key.noConfusion hc
  | view h => trivial
  | release v => exact Nat.le_trans hn ha
  | _ => exact False.elim ha

/-- A query for one value changes nothing but what it makes. It makes a
    statement with its handle and a view, and it closes the statement in the
    end, whatever became of it; the view goes on to hold its share. -/
theorem queryFirst_leads (e : Engine) (sql : Sql) (params : Params) (s : Session) :
    s.Leads (Touch.ofQuery s) (s.queryFirst e sql params).2 := by
  have hprepare := prepare_leads (Touch.ofQuery s) trivial sql params s
  unfold queryFirst
  split
  · rename_i heq
    rw [heq] at hprepare
    exact hprepare
  · rename_i id t heq
    rw [heq] at hprepare
    rcases prepare_ok sql params s t id heq with ⟨rfl, c, rfl⟩
    -- The statement is closed in the end, whatever became of it.
    have hclose : ∀ u : Session, s.Leads (Touch.ofQuery s) u →
        s.Leads (Touch.ofQuery s) (u.closeStatement s.statements.length) := fun u hu =>
      hu.trans (Leads.one (.close s.statements.length) (Nat.le_refl s.statements.length) (.close _))
    have hstep := hprepare.trans ((step_leads e s.statements.length
      (s.newStatement c sql params).2).mono (ofQuery_of_ofStep s _ _ (Nat.le_refl _)
        (drives_newStatement c sql params s)))
    split
    · rename_i hs
      rw [hs] at hstep
      exact hclose _ hstep
    · rename_i u hs
      rw [hs] at hstep
      exact hclose _ (hstep.trans ((getColumn_leads u.views.length s.statements.length (.index 0)
        u).mono (ofQuery_of_ofReading s u.views.length hstep.views_le _ 0)))

/-- The view that a query for one value yields was not there before. -/
theorem queryFirst_fresh (e : Engine) (sql : Sql) (params : Params) (s t : Session) (v : ViewId)
    (h : s.queryFirst e sql params = (.ok v, t)) : s.views.length ≤ v := by
  have hprepare := prepare_leads (fun _ => True) trivial sql params s
  unfold queryFirst at h
  split at h
  · exact absurd h refused_ne_ok
  · rename_i id u heq
    rw [heq] at hprepare
    have hstep := hprepare.trans ((step_leads e id u).mono (fun _ _ => trivial))
    split at h
    · exact absurd h refused_ne_ok
    · rename_i w hs
      rw [hs] at hstep
      -- Closing the statement does not change the answer.
      simp only [Prod.mk.injEq] at h
      rcases getColumn_ok id (.index 0) w _ v (Prod.ext h.1 rfl) with ⟨_, _, _, _, _, _, hv, _⟩
      rw [hv]
      exact hstep.views_le

/-- Asking for a table changes nothing but what it makes. -/
theorem tableExists_leads (e : Engine) (name : Text) (s : Session) :
    s.Leads (Touch.ofQuery s) (s.tableExists e name).2 := by
  have hquery := queryFirst_leads e tableQuery (.positional [.text name]) s
  unfold tableExists
  split
  · rename_i heq
    rw [heq] at hquery
    exact hquery
  · rename_i v t heq
    rw [heq] at hquery
    exact hquery.trans (readOnce_leads (Touch.ofQuery s) v
      (queryFirst_fresh e tableQuery _ s t v heq) _ t)

/-- Asking for the last rowid changes nothing but what it makes. -/
theorem lastInsertRowid_leads (e : Engine) (s : Session) :
    s.Leads (Touch.ofQuery s) (s.lastInsertRowid e).2 := by
  have hquery := queryFirst_leads e rowidQuery Params.empty s
  unfold lastInsertRowid
  split
  · rename_i heq
    rw [heq] at hquery
    exact hquery
  · rename_i v t heq
    rw [heq] at hquery
    exact hquery.trans (readOnce_leads (Touch.ofQuery s) v
      (queryFirst_fresh e rowidQuery _ s t v heq) _ t)

/-! ### Direct use of a handle -/

/-- Executing on the raw cursor of a handle touches the cursor and nothing else,
    and in particular not the row. -/
theorem executeHandle_leads (e : Engine) (h : HandleId) (s : Session) :
    s.Leads (Touch.ofCursor h) (s.executeHandle e h).2 := by
  unfold executeHandle
  split
  · exact Leads.refl _ s
  · rename_i handle _
    have hexec := executeCursor_leads e h handle handle.sql Params.empty s
    split
    · rename_i heq
      rw [heq] at hexec
      exact hexec
    · rename_i heq
      rw [heq] at hexec
      exact hexec

end Session

end RowScope
