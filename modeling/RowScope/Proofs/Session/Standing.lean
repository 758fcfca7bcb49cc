import RowScope.Proofs.Session.Opening

/-!
# What Handles Stand On

Two things hold of every handle wherever commands lead, also if shares are given
back that belong to nobody. As long as a handle did not end it has a share left.
And as long as its connection is open that connection is the one in use, since
there is never more than one at a time that any handle was made on.

A connection whose preparation was interrupted stays open without being in use.
So it is not true that only the connection in use is open; the handles have to
be looked at.

## Main definitions

* `Account.Funded`: A handle that did not end has a share left.
* `Session.Linked`: A handle whose connection is open has the connection in use.

## Theorems

* `reachable_funded`: The first holds wherever commands lead.
* `Linked.follows`, `Linked.openDatabase`, `Linked.closeDatabase`: What commands
  preserve the second.
* `reachable_linked`: So does the second.
* `reachable_connected`: The connection in use is open.
-/

namespace RowScope

/-! ### Shares -/

namespace Account

/-- An account that was opened and did not end has a share left. -/
def Funded (x : Account) : Prop := x.made = true → x.finalized = false → 0 < x.shares

theorem Funded.less {x : Account} (hx : x.Funded) : x.less.Funded := by
  intro hmade hfin
  rcases less_cases x with ⟨-, heq⟩ | ⟨-, -, -, heq⟩ | ⟨-, -, hlt, heq⟩
  · rw [heq] at hmade hfin ⊢
    exact hx hmade hfin
  · rw [heq] at hfin
    exact Bool.noConfusion hfin
  · rw [heq]
    simp only []
    omega

/-- Every entry keeps an account funded, even one by somebody who holds nothing.
    This is why it holds where the counts do not. -/
theorem Entry.funded {a : Touch} {x y : Account} (he : Entry a x y) (hx : x.Funded) :
    y.Funded := by
  -- Shares are lost by giving one back only, and the last one is the end.
  cases he with
  | keep => exact hx
  | opened _ _ => exact fun _ _ => Nat.one_pos
  | bareOpened _ _ => exact fun _ _ => Nat.one_pos
  | row _ _ _ _ => exact hx
  | rowSet _ _ _ => exact hx
  | viewed _ _ _ => exact fun _ _ => Nat.succ_pos _
  | bareViewed _ _ _ => exact fun _ _ => Nat.succ_pos _
  | shared _ _ _ => exact fun _ _ => Nat.succ_pos _
  | givenBack _ => exact hx.less
  | closed _ _ _ =>
      refine Funded.less ?_
      exact hx
  | released _ _ _ =>
      refine Funded.less ?_
      exact hx

end Account

namespace Session

theorem reachable_funded (e : Engine) (allowed : Command → Prop) (s : Session)
    (hs : Reachable e allowed s) (h : HandleId) (handle : Handle)
    (hh : s.handles[h]? = some handle) (live : handle.finalized = false) : 0 < handle.shares := by
  have hfunded : (s.account h).Funded := by
    refine reachable_preserves e allowed (fun s => (s.account h).Funded) ?_ ?_ s hs
    · intro path config here hmade
      exact Bool.noConfusion hmade
    · intro c s a u w _ _ m hu
      exact (m.entry a u w h).funded hu
  rw [account_of_some s h handle hh] at hfunded
  exact hfunded rfl live

/-! ### Connections -/

/-- Connections are numbered in the order in which they are made, and a handle
    whose connection is open has the connection in use. -/
structure Linked (s : Session) : Prop where
  current : ∀ c, s.database.connection = some c → c < s.connections.length
  made : ∀ (h : HandleId) (handle : Handle), s.handles[h]? = some handle →
    handle.cursor.connection < s.connections.length ∧
      (s.isConnected handle.cursor.connection = true →
        s.database.connection = some handle.cursor.connection)

/-- Calls on an open connection make no connection and close none. -/
theorem Follows.connections_kept {e : Engine} {s t : Session} {ks : List Call}
    (hf : s.Follows e t ks) (work : ∀ k ∈ ks, k.isWork = true) :
    t.connections.length = s.connections.length ∧ ∀ c, t.isConnected c = s.isConnected c := by
  have hwire : t.wire.connections = s.wire.connections := by
    rw [hf.wire]
    exact s.wire.through_connections e ks work
  constructor
  · have h := congrArg List.length hwire
    simpa only [Session.wire, List.length_map] using h
  · intro c
    rw [← wire_isOpen, ← wire_isOpen, Wire.isOpen, Wire.isOpen, hwire]

/-- Calls on an open connection preserve what handles stand on. A handle that is
    made on the way is made on the connection in use, and the connections are
    the same before and after. -/
theorem Linked.follows {e : Engine} {s t : Session} {ks : List Call} (hs : s.Linked)
    (hf : s.Follows e t ks) (work : ∀ k ∈ ks, k.isWork = true) : t.Linked := by
  rcases hf.connections_kept work with ⟨hlength, hopen⟩
  constructor
  · intro c hc
    rw [hf.database] at hc
    rw [hlength]
    exact hs.current c hc
  · intro h handle hh
    have hsame : handle.cursor.connection = (s.wire.cursor h).connection := by
      rw [← wire_cursor t h handle hh, hf.wire]
      exact s.wire.through_connection e ks h
    rw [hlength, hopen, hf.database, hsame]
    rcases hx : s.handles[h]? with _ | x
    · -- The handle is new, so it was made on the connection in use.
      rcases hc : s.database.connection with _ | c
      · exfalso
        have hlt := (List.getElem?_eq_some_iff.mp hh).1
        rw [List.getElem?_eq_none_iff] at hx
        rcases hf.made with hmade | hopened
        · omega
        · exact hopened hc
      · simp only [wire, hx, hc, Option.getD_some, Cursor.fresh]
        exact ⟨hs.current c hc, fun _ => trivial⟩
    · rw [wire_cursor s h x hx]
      exact hs.made h x hx

/-- A connection that was just made is no handle's, and as long as none is in
    use no handle's connection is open. So it does not matter whether the new
    connection comes into use or is left behind. -/
theorem Linked.opening {s t : Session} (hs : s.Linked) (closed : s.database.connection = none)
    (handles : t.handles = s.handles)
    (connections : t.connections = s.connections ∧ t.database.connection = none ∨
      t.connections = s.connections ++ [Connection.fresh] ∧
        (t.database.connection = none ∨ t.database.connection = some s.connections.length)) :
    t.Linked := by
  -- No handle is connected before, and these are the connections of the handles
  -- afterwards.
  have apart : ∀ (h : HandleId) (handle : Handle), t.handles[h]? = some handle →
      handle.cursor.connection < s.connections.length ∧
        s.isConnected handle.cursor.connection ≠ true := by
    intro h handle hh
    rw [handles] at hh
    rcases hs.made h handle hh with ⟨hlt, hconnected⟩
    refine ⟨hlt, ?_⟩
    intro hc
    have hin := hconnected hc
    rw [closed] at hin
    cases hin
  rcases connections with ⟨hconnections, hnone⟩ | ⟨hconnections, hdatabase⟩
  · constructor
    · intro c hc
      rw [hnone] at hc
      cases hc
    · intro h handle hh
      rcases apart h handle hh with ⟨hlt, hno⟩
      unfold isConnected at hno ⊢
      rw [hconnections]
      exact ⟨hlt, fun hc => absurd hc hno⟩
  · have hlength : t.connections.length = s.connections.length + 1 := by
      rw [hconnections, List.length_append, List.length_singleton]
    constructor
    · intro c hc
      rcases hdatabase with hnone | hsome
      · rw [hnone] at hc
        cases hc
      · rw [hsome, Option.some.injEq] at hc
        rw [← hc, hlength]
        exact Nat.lt_succ_self _
    · intro h handle hh
      rcases apart h handle hh with ⟨hlt, hno⟩
      refine ⟨by rw [hlength]; exact Nat.lt_succ_of_lt hlt, ?_⟩
      intro hc
      unfold isConnected at hno hc
      rw [hconnections, List.getElem?_append_left hlt] at hc
      exact absurd hc hno

/-- Opening preserves what handles stand on, in each of the ways in which it can
    end. -/
theorem Linked.openDatabase {s : Session} (hs : s.Linked) (e : Engine) :
    (s.openDatabase e).2.Linked := by
  rcases hc : s.database.connection with _ | c
  · have hcases := openDatabase_cases e s hc
    generalize s.openDatabase e = o at hcases ⊢
    cases hcases with
    | astray f path => exact hs
    | unconnected target uri x path failed =>
        exact hs.opening hc rfl (Or.inl ⟨rfl, hc⟩)
    | unwritten target uri f path connected written =>
        exact hs.opening hc rfl (Or.inr ⟨rfl, Or.inl hc⟩)
    | interrupted target uri done rest x path connected written interrupted =>
        exact hs.opening hc rfl (Or.inr ⟨rfl, Or.inl hc⟩)
    | opened target uri sqls path connected written finished =>
        exact hs.opening hc rfl (Or.inr ⟨rfl, Or.inr rfl⟩)
  · rw [openDatabase_opened e s c hc]
    exact hs

/-- Closing preserves what handles stand on: the connection in use is closed,
    and with it that of every handle that was connected. -/
theorem Linked.closeDatabase {s : Session} (hs : s.Linked) : s.closeDatabase.Linked := by
  rcases hc : s.database.connection with _ | c
  · rw [closeDatabase_closed s hc]
    exact hs
  · rw [closeDatabase_opened s c hc]
    constructor
    · intro c' hc'
      cases hc'
    · intro h handle hh
      rcases hs.made h handle hh with ⟨hlt, hconnected⟩
      refine ⟨?_, ?_⟩
      · rw [List.length_modify]
        exact hlt
      · intro hopen
        simp only [isConnected, List.getElem?_modify] at hopen
        exfalso
        by_cases heq : c = handle.cursor.connection
        · -- It is the connection that was closed.
          rcases hx : s.connections[handle.cursor.connection]? with _ | x
          · rw [hx] at hopen
            cases hopen
          · rw [hx] at hopen
            simp [heq] at hopen
        · -- Any other connection is as open as it was, and then it would be the
          -- one in use.
          have hsame : s.isConnected handle.cursor.connection = true := by
            unfold isConnected
            simpa [heq] using hopen
          have hin := hconnected hsame
          rw [hc, Option.some.injEq] at hin
          exact heq hin

/-- A handle whose connection is open has the connection in use, wherever
    commands lead. -/
theorem reachable_linked (e : Engine) (s : Session) (hs : Reachable e (fun _ => True) s) :
    s.Linked := by
  induction hs with
  | start path config here =>
      constructor
      · intro c hc
        cases hc
      · intro h handle hh
        cases hh
  | @perform s c before permitted ih =>
      -- What does not connect makes its calls on connections as they are.
      by_cases apart : c.connects = false
      · rcases perform_follows e c s (reachable_separate e _ s before) apart with ⟨ks, hf, work⟩
        exact ih.follows hf work
      · cases c with
        | openDatabase =>
            simp only [perform, plainly_state]
            exact ih.openDatabase e
        | enter =>
            simp only [perform, plainly_state]
            exact ih.openDatabase e
        | closeDatabase => exact ih.closeDatabase
        | _ => exact absurd rfl apart

/-- The connection in use is open after opening the database, whatever comes of
    that. A connection that was interrupted is open too, but it is not in
    use. -/
theorem openDatabase_connected (e : Engine) (s : Session)
    (hs : ∀ c, s.database.connection = some c → s.isConnected c = true) (c : ConnectionId)
    (hc : (s.openDatabase e).2.database.connection = some c) :
    (s.openDatabase e).2.isConnected c = true := by
  rcases hclosed : s.database.connection with _ | c'
  · have unused : ∀ t : Session, t.database = s.database → t.database.connection ≠ some c := by
      intro t ht heq
      rw [ht, hclosed] at heq
      cases heq
    have hcases := openDatabase_cases e s hclosed
    generalize s.openDatabase e = o at hcases hc ⊢
    cases hcases with
    | astray f path => exact absurd hc (unused _ rfl)
    | unconnected target uri x path failed => exact absurd hc (unused _ rfl)
    | unwritten target uri f path connected written => exact absurd hc (unused _ rfl)
    | interrupted target uri done rest x path connected written interrupted =>
        exact absurd hc (unused _ rfl)
    | opened target uri sqls path connected written finished =>
        -- It is the connection that was made last.
        obtain rfl : s.connections.length = c := Option.some.inj hc
        show ((s.connections ++ [Connection.fresh])[s.connections.length]?).any _ = true
        rw [List.getElem?_concat_length]
        rfl
  · rw [openDatabase_opened e s c' hclosed] at hc ⊢
    exact hs c hc

/-- The connection in use is open, wherever commands lead. -/
theorem reachable_connected (e : Engine) (s : Session) (hs : Reachable e (fun _ => True) s)
    (c : ConnectionId) (hc : s.database.connection = some c) : s.isConnected c = true := by
  induction hs generalizing c with
  | start path config here => cases hc
  | @perform s k before permitted ih =>
      by_cases apart : k.connects = false
      · rcases perform_follows e k s (reachable_separate e _ s before) apart with ⟨ks, hf, work⟩
        rw [hf.database] at hc
        rw [(hf.connections_kept work).2]
        exact ih c hc
      · cases k with
        | openDatabase =>
            simp only [perform, plainly_state] at hc ⊢
            exact openDatabase_connected e s ih c hc
        | enter =>
            simp only [perform, plainly_state] at hc ⊢
            exact openDatabase_connected e s ih c hc
        | closeDatabase =>
            -- No connection is in use afterwards.
            rcases hopen : s.database.connection with _ | c'
            · simp only [perform, closeDatabase_closed s hopen, hopen] at hc
              cases hc
            · simp only [perform, closeDatabase_opened s c' hopen] at hc
              cases hc
        | _ => exact absurd rfl apart

end Session

end RowScope
