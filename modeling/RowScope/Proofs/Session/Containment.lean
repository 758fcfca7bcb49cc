import RowScope.Proofs.Path.Place
import RowScope.Proofs.Session.Discipline
import RowScope.Proofs.Session.Opening

/-!
# Containment of Failures

Where the failures of an engine go. Whatever a program does, and in whatever
state the database is, a failure of the database reaches the program as an error
of the library with the same message and codes, if it is the failure of a call
that the program has asked for. If a pragma of the configuration fails, or the
end of a cursor, the program does not learn of it from any answer; there is one
warning for the pragma, and none for the cursor. Failures that are not of the
database pass through everything unchanged.

It also goes the other way. An answer that speaks for the engine is the failure
of a call that was made just now, so no failure is ever made up or held back.

The raw cursor of a handle is the one thing left out: to execute on it directly
is to talk to the engine, and not to the library.

## Main definitions

* `Deed.transcript`: The calls of a deed, each with the failure that it met.
* `Call.isAwaited`: A call whose failure is the caller's business.
* `Deed.Contains`: The failures of a deed have gone where they should.

## Theorems

* `transcript_finalize`, `transcript_disconnect`: How cursors and connections
  end.
* `perform_accounts`: What a command answers and what it warns of, by what was
  raised.
* `failures_contained`: No failure goes elsewhere.
-/

namespace RowScope

/-- The calls of a deed, each with the failure that it met. -/
def Deed.transcript (e : Engine) (d : Deed) : List Event :=
  d.before.wire.transcript e (d.issued e)

/-- What a deed reports beside its answer. -/
def Deed.notes (e : Engine) (d : Deed) : List Diagnostic :=
  (d.after e).log.drop d.before.log.length

/-- A call whose failure is the caller's business: not that of a pragma of the
    configuration, and not that of the end of a cursor or a connection. -/
def Call.isAwaited : Call → Bool
  | connect _ _ _ => true
  | script _ => true
  | execute _ _ _ => true
  | fetch _ => true
  | _ => false

/-- The failures of a deed have gone where they should. -/
structure Deed.Contains (e : Engine) (d : Deed) : Prop where
  /-- A failure of the database is an error of the library, with the same
      message and codes. -/
  converted : ∀ event ∈ d.transcript e, event.call.isAwaited = true → ∀ x,
    event.failure = some x → x.isDatabaseFailure = true →
      d.answer e = .error (.access (.engine ⟨x.message, x.code, x.codeName⟩))
  /-- Any other failure is the answer, unchanged. -/
  passed : ∀ event ∈ d.transcript e, ∀ x, event.failure = some x → x.isDatabaseFailure = false →
    d.answer e = .error (.engine x)
  /-- No failure of the database is the answer, unchanged. -/
  kept : ∀ x, d.answer e = .error (.engine x) →
    x.isDatabaseFailure = false ∧ ∃ event ∈ d.transcript e, event.failure = some x
  /-- An error that stands for a failure stands for one that was the caller's
      business. -/
  met : ∀ report, d.answer e = .error (.access (.engine report)) →
    ∃ event ∈ d.transcript e, ∃ x, event.call.isAwaited = true ∧ event.failure = some x ∧
      x.isDatabaseFailure = true ∧ report = ⟨x.message, x.code, x.codeName⟩
  /-- There is one warning for each pragma that the database has refused, and no
      other. -/
  warned : (d.notes e).filter (·.level == .warning) =
    (d.transcript e).filterMap (Event.warning? d.before.database.path)
  /-- All that the end of a cursor can fail with is a misuse of the engine. -/
  ended : ∀ event ∈ d.transcript e, ∀ h x, event.call = .finalize h → event.failure = some x →
    x.kind = .programming

/-! ### Transcripts -/

/-- Every event of a transcript is a call that met what it met at some point.
    The point itself is of no interest to what follows: what the end of a cursor
    or of a connection can fail with is the same at all of them. -/
theorem Wire.mem_transcript (e : Engine) (w : Wire) (ks : List Call) (event : Event)
    (h : event ∈ w.transcript e ks) : ∃ w' : Wire, event.failure = w'.meet? e event.call := by
  induction ks generalizing w with
  | nil => exact absurd h List.not_mem_nil
  | cons k rest ih =>
      rcases List.mem_cons.mp h with rfl | hrest
      · exact ⟨w, rfl⟩
      · exact ih (w.after e k) hrest

/-- The end of a cursor fails only if the cursor's connection has ended before
    it. That is a failure of the database, and of no other kind, which is why
    nobody needs to hear of it. -/
theorem Wire.transcript_finalize (e : Engine) (w : Wire) (ks : List Call) (event : Event)
    (hevent : event ∈ w.transcript e ks) (h : HandleId) (hcall : event.call = .finalize h)
    (x : EngineError) (hx : event.failure = some x) : x = .closedDatabase := by
  rcases w.mem_transcript e ks event hevent with ⟨w', hmeet⟩
  rw [hcall, hx, meet?] at hmeet
  split at hmeet
  · cases hmeet
  · exact Option.some.inj hmeet

theorem Wire.transcript_disconnect (e : Engine) (w : Wire) (ks : List Call) (event : Event)
    (hevent : event ∈ w.transcript e ks) (c : ConnectionId) (hcall : event.call = .disconnect c) :
    event.failure = none := by
  rcases w.mem_transcript e ks event hevent with ⟨w', hmeet⟩
  rw [hcall] at hmeet
  exact hmeet

/-- What is raised is a failure of a call that is the caller's business, or no
    failure of the database. -/
theorem Event.raised?_eq (event : Event) (x : EngineError) (h : event.raised? = some x) :
    event.failure = some x ∧ (x.isDatabaseFailure = true → event.call.isAwaited = true) := by
  rcases event with ⟨call, failure⟩
  cases call with
  | finalize h' => cases h
  | disconnect c => cases h
  | pragma sql =>
      rcases raised_pragma sql failure x h with ⟨hfailure, hother⟩
      exact ⟨hfailure, fun hx => absurd (hother.symm.trans hx) Bool.noConfusion⟩
  | _ => exact ⟨h, fun _ => rfl⟩

/-- A failure is raised if it is the caller's business, or no failure of the
    database. Together with `raised?_eq` this is exactly what is raised, so that
    the program hears of neither more nor less. -/
theorem Wire.mem_raised (e : Engine) (w : Wire) (ks : List Call) (event : Event)
    (hevent : event ∈ w.transcript e ks) (x : EngineError) (hx : event.failure = some x)
    (h : event.call.isAwaited = true ∨ x.isDatabaseFailure = false) :
    x ∈ raised (w.transcript e ks) := by
  refine List.mem_filterMap.mpr ⟨event, hevent, ?_⟩
  have hends := w.transcript_finalize e ks event hevent
  have hcloses := w.transcript_disconnect e ks event hevent
  rcases event with ⟨call, failure⟩
  simp only at hx hends hcloses h
  subst hx
  cases call with
  | finalize h' =>
      -- The only such failure is one of the database.
      obtain rfl := hends h' rfl x rfl
      rcases h with hc | hc
      · cases hc
      · cases hc
  | disconnect c => exact absurd (hcloses c rfl) (Option.some_ne_none x)
  | pragma sql =>
      rcases h with hc | hc
      · cases hc
      · simp only [Event.raised?, Option.filter_some, hc, Bool.not_false, if_true]
  | _ => rfl

/-! ### Commands -/

namespace Session

/-- What an operation has called; its answer, by what was raised; and its
    warnings. -/
structure Accounts {α : Type} (e : Engine) (s : Session) (o : Outcome α) (ks : List Call) :
    Prop where
  calls : o.2.calls = s.calls ++ ks
  reports : Reports (raised (s.wire.transcript e ks)) o.1
  warns : ∃ notes, o.2.log = s.log ++ notes ∧
    notes.filter (·.level == .warning) =
      (s.wire.transcript e ks).filterMap (Event.warning? s.database.path)

/-- Without pragmas there is nothing to warn of: the calls that do the work of a
    command leave no warning behind, however they fail. -/
theorem warning_of_isWork (e : Engine) (path : Text) (w : Wire) (ks : List Call)
    (hks : ∀ k ∈ ks, k.isWork = true) :
    (w.transcript e ks).filterMap (Event.warning? path) = [] := by
  induction ks generalizing w with
  | nil => rfl
  | cons k rest ih =>
      have hrest := ih (w.after e k) fun k' hk' => hks k' (List.mem_cons_of_mem k hk')
      have hk := hks k List.mem_cons_self
      rw [Wire.transcript, List.filterMap_cons]
      cases k with
      | pragma sql => cases hk
      | _ => exact hrest

/-- A command that does not connect accounts for its calls, and reports nothing
    but what the library writes at the lowest level. -/
theorem Yields.accounts {α : Type} {e : Engine} {s : Session} {o : Outcome α}
    (h : s.Yields e o) : ∃ ks, s.Accounts e o ks := by
  rcases h with ⟨ks, hf, hwork, hreports⟩
  rcases hf.log with ⟨notes, hlog, hdebug⟩
  refine ⟨ks, hf.calls, hreports, notes, hlog, ?_⟩
  rw [warning_of_isWork e _ s.wire ks hwork, List.filter_eq_nil_iff]
  intro n hn
  rw [hdebug n hn]
  decide

/-- What can be wrong with a path is found before the engine is called, so that
    no failure of the engine is behind it. -/
theorem target_own (readOnly : Bool) (here : Path) (path : Text) :
    IsOwn (Path.target readOnly here path) := by
  unfold Path.target
  split
  · split
    · rename_i fault hfault
      -- Whatever is wrong with a name is found without the engine.
      rcases List.exists_of_findSome?_eq_some hfault with ⟨name, -, hname⟩
      rcases Path.nameFault?_eq_some hname with rfl | ⟨rfl, -⟩
      · exact .error rfl
      · exact .error rfl
    · split
      · exact .ok _
      · exact .error rfl
  · exact .ok _

/-- What a transcript warns of is all at the level of warnings, so that nothing
    is lost when the other diagnostics are set aside. -/
theorem filter_warnings (events : List Event) (path : Text) :
    (events.filterMap (Event.warning? path)).filter (·.level == .warning) =
      events.filterMap (Event.warning? path) := by
  refine List.filter_eq_self.mpr fun n hn => ?_
  rcases List.mem_filterMap.mp hn with ⟨⟨call, failure⟩, -, hw⟩
  cases call with
  | pragma sql =>
      simp only [Event.warning?, Option.map_eq_some_iff] at hw
      rcases hw with ⟨x, -, rfl⟩
      rfl
  | _ => cases hw

/-- What connecting and then running pragmas comes to: one event for the
    connection, which met nothing, and then the briefing. The pragmas go out on
    the connection that was just made, so what they meet is what the session has
    recorded of them. -/
theorem transcript_opening (e : Engine) (s : Session) (target : Text) (uri : Bool)
    (sqls : List Text) (connected : e.connect s.past target = none) :
    s.wire.transcript e (.connect target s.database.config.timeout uri :: sqls.map .pragma) =
      ⟨.connect target s.database.config.timeout uri, none⟩ ::
        s.briefing e target uri sqls := by
  have hmeet : s.wire.meet? e (.connect target s.database.config.timeout uri) = none := connected
  rw [Wire.transcript, hmeet]
  refine congrArg _ (Wire.transcript_pragmas e sqls _ _ ?_)
  have hnone : (e.connect s.wire.past target).isNone = true := by
    rw [show e.connect s.wire.past target = none from connected]
    rfl
  simp only [Wire.after, hnone, if_true]
  rfl

/-- Opening accounts for its calls, in each of the ways in which it can end. An
    engine is met at two points only, the connection and the pragmas. A failure
    of the connection is the answer. A failure of a pragma is a warning if it is
    one of the database, and otherwise it is the answer and the pragmas after it
    are not run. -/
theorem openDatabase_accounts (e : Engine) (s : Session) :
    ∃ ks, s.Accounts e (s.openDatabase e) ks := by
  rcases hopen : s.database.connection with _ | c
  · have hcases := openDatabase_cases e s hopen
    generalize s.openDatabase e = o at hcases
    cases hcases with
    | astray f path =>
        exact ⟨[], (List.append_nil _).symm, .refused (target_own _ _ _ f path), [],
          (List.append_nil _).symm, rfl⟩
    -- The connection was the only call, and its failure is the answer.
    | unconnected target uri x path failed =>
        have hmeet : s.wire.meet? e (.connect target s.database.config.timeout uri) = some x :=
          failed
        refine ⟨[.connect target s.database.config.timeout uri], rfl, ?_, [],
          (List.append_nil _).symm, rfl⟩
        rw [Wire.transcript, hmeet]
        exact .raised x
    | unwritten target uri f path connected written =>
        have htranscript := transcript_opening e s target uri [] connected
        refine ⟨.connect target s.database.config.timeout uri :: [].map .pragma, rfl, ?_, [],
          (List.append_nil _).symm, ?_⟩
        · rw [htranscript]
          exact .refused rfl
        · rw [htranscript]
          rfl
    -- The pragmas before the one that failed have left their warnings, and the
    -- failure itself is the only one that was raised.
    | interrupted target uri done rest x path connected written interrupted =>
        have htranscript := transcript_opening e s target uri done connected
        have hother : x.isDatabaseFailure = false :=
          raised_pragmas e _ done x (interrupted ▸ List.mem_singleton_self x)
        refine ⟨.connect target s.database.config.timeout uri :: done.map .pragma, ?_, ?_,
          (s.briefing e target uri done).filterMap (Event.warning? s.database.path), rfl, ?_⟩
        · simp only [instructed, linked, dialled, called, asked, List.append_assoc,
            List.cons_append, List.nil_append]
        · have hraised : raised (s.wire.transcript e
              (.connect target s.database.config.timeout uri :: done.map .pragma)) = [x] := by
            rw [htranscript]
            exact interrupted
          have hfault : Fault.ofEngine x = .engine x := by
            simp only [Fault.ofEngine, hother, Bool.false_eq_true, if_false]
          rw [hraised, ← hfault]
          exact .raised x
        · rw [htranscript, filter_warnings]
          rfl
    | opened target uri sqls path connected written finished =>
        have htranscript := transcript_opening e s target uri sqls connected
        refine ⟨.connect target s.database.config.timeout uri :: sqls.map .pragma, ?_, ?_,
          (s.briefing e target uri sqls).filterMap (Event.warning? s.database.path) ++
            [.opened s.database.path s.database.config.readOnly], ?_, ?_⟩
        · simp only [adopt, noted, instructed, linked, dialled, called, asked, List.append_assoc,
            List.cons_append, List.nil_append]
        · have hraised : raised (s.wire.transcript e
              (.connect target s.database.config.timeout uri :: sqls.map .pragma)) = [] := by
            rw [htranscript]
            exact finished
          rw [hraised]
          exact .ok ()
        · simp only [adopt, noted, instructed, linked, dialled, called, asked, List.append_assoc]
        · -- That the database is open is reported, but it is no warning.
          rw [htranscript, List.filter_append, filter_warnings, List.filterMap_cons]
          exact List.append_nil _
  · rw [openDatabase_opened e s c hopen]
    exact ⟨[], (List.append_nil _).symm, .ok (), [], (List.append_nil _).symm, rfl⟩

/-- Closing accounts for its calls: the end of the connection, if there is one,
    and it is not raised. -/
theorem closeDatabase_accounts (e : Engine) (s : Session) :
    ∃ ks, s.Accounts e ((.ok .null, s.closeDatabase) : Outcome Value) ks := by
  rcases hopen : s.database.connection with _ | c
  · rw [closeDatabase_closed s hopen]
    exact ⟨[], (List.append_nil _).symm, .ok _, [], (List.append_nil _).symm, rfl⟩
  · rw [closeDatabase_opened s c hopen]
    exact ⟨[.disconnect c], rfl, .ok _, [.closed s.database.path], rfl, rfl⟩

theorem Accounts.plainly {α : Type} {e : Engine} {s : Session} {o : Outcome α} {ks : List Call}
    (value : α → Value) (h : s.Accounts e o ks) :
    s.Accounts e ((Session.plainly value o).1.answer, (Session.plainly value o).2) ks := by
  rw [plainly_answer, plainly_state]
  exact ⟨h.calls, h.reports.map value, h.warns⟩

/-- A command accounts for its calls, whichever it is. Those that connect run
    pragmas, and are taken one by one; all others do their work on a connection
    that is there, and their calls are of the kinds whose failures are
    answered. -/
theorem perform_accounts (e : Engine) (c : Command) (s : Session) (separate : s.Separate)
    (indirect : ∀ h, c ≠ .executeHandle h) :
    ∃ ks, s.Accounts e ((s.perform e c).1.answer, (s.perform e c).2) ks := by
  -- Only what connects can run pragmas, and so only that can warn.
  rcases apart : c.connects with _ | _
  · exact (perform_yields e c s separate apart indirect).accounts
  · cases c with
    | openDatabase =>
        rcases openDatabase_accounts e s with ⟨ks, h⟩
        exact ⟨ks, h.plainly _⟩
    | enter =>
        rcases openDatabase_accounts e s with ⟨ks, h⟩
        exact ⟨ks, h.plainly _⟩
    | closeDatabase => exact closeDatabase_accounts e s
    | _ => cases apart

/-- Whatever program has led to a session, a command contains the failures that
    it meets, unless it executes on a raw cursor. The answer is a report of what
    was raised, and a command raises at most one failure, since it ends with it.
    So a failure that is the caller's business is the answer, and an answer that
    speaks for the engine has such a failure behind it. -/
theorem failures_contained (e : Engine) (s : Session) (hs : Reachable e (fun _ => True) s)
    (c : Command) (indirect : ∀ h, c ≠ .executeHandle h) : (⟨s, c⟩ : Deed).Contains e := by
  rcases perform_accounts e c s (reachable_separate e _ s hs) indirect with
    ⟨ks, hcalls, hreports, notes, hlog, hwarns⟩
  have hissued : (⟨s, c⟩ : Deed).issued e = ks := Deed.issued_eq hcalls
  have htranscript : (⟨s, c⟩ : Deed).transcript e = s.wire.transcript e ks := by
    rw [Deed.transcript, hissued]
  have hnotes : (⟨s, c⟩ : Deed).notes e = notes := by
    rw [Deed.notes, show ((⟨s, c⟩ : Deed).after e).log = s.log ++ notes from hlog, List.drop_left]
  -- A failure that was raised is the only one, and the answer.
  have answered : ∀ x ∈ raised (s.wire.transcript e ks),
      (⟨s, c⟩ : Deed).answer e = .error (.ofEngine x) := by
    intro x hx
    change (s.perform e c).1.answer = _
    generalize raised (s.wire.transcript e ks) = xs at hreports hx
    simp only at hreports
    generalize (s.perform e c).1.answer = answer at hreports ⊢
    cases hreports with
    | own _ => exact absurd hx List.not_mem_nil
    | raised y => rw [List.mem_singleton.mp hx]
  -- And an answer that speaks for the engine is no answer of the library
  -- itself.
  have behind : ∀ f, (⟨s, c⟩ : Deed).answer e = .error f → f.isEngines = true →
      ∃ x ∈ raised (s.wire.transcript e ks), f = .ofEngine x := by
    intro f hf hengines
    change (s.perform e c).1.answer = _ at hf
    generalize raised (s.wire.transcript e ks) = xs at hreports ⊢
    simp only at hreports
    generalize (s.perform e c).1.answer = answer at hreports hf
    cases hreports with
    | own own =>
        rw [own f hf] at hengines
        cases hengines
    | raised y => exact ⟨y, List.mem_singleton_self y, (Except.error.inj hf).symm⟩
  refine ⟨?_, ?_, ?_, ?_, ?_, ?_⟩
  · intro event hevent hawaited x hx hfailure
    rw [htranscript] at hevent
    have hraised := s.wire.mem_raised e ks event hevent x hx (Or.inl hawaited)
    rw [answered x hraised, Fault.ofEngine, if_pos hfailure]
    rfl
  · intro event hevent x hx hfailure
    rw [htranscript] at hevent
    have hraised := s.wire.mem_raised e ks event hevent x hx (Or.inr hfailure)
    rw [answered x hraised, Fault.ofEngine, hfailure]
    rfl
  · intro x hx
    rcases behind _ hx rfl with ⟨y, hraised, hy⟩
    rcases List.mem_filterMap.mp hraised with ⟨event, hevent, hevent'⟩
    unfold Fault.ofEngine at hy
    split at hy
    · cases hy
    · rename_i hfailure
      obtain rfl := Fault.engine.inj hy
      rw [htranscript]
      exact ⟨Bool.not_eq_true _ ▸ hfailure, event, hevent, (event.raised?_eq x hevent').1⟩
  · intro report hreport
    rcases behind _ hreport rfl with ⟨y, hraised, hy⟩
    rcases List.mem_filterMap.mp hraised with ⟨event, hevent, hevent'⟩
    rcases event.raised?_eq y hevent' with ⟨hfailure, hawaited⟩
    unfold Fault.ofEngine at hy
    split at hy
    · rename_i hy'
      rw [htranscript]
      exact ⟨event, hevent, y, hawaited hy', hfailure, hy',
        AccessError.engine.inj (Fault.access.inj hy)⟩
    · cases hy
  · rw [hnotes, htranscript]
    exact hwarns
  · intro event hevent h x hcall hx
    rw [htranscript] at hevent
    rw [s.wire.transcript_finalize e ks event hevent h hcall x hx]
    rfl

end Session

/-- A failure that a database has while somebody else writes to it. -/
def EngineError.busy : EngineError :=
  ⟨.operational, Text.ofString "database is locked", some 5, some (Text.ofString "SQLITE_BUSY")⟩

/-- An engine that connects and then refuses everything. -/
def Engine.locked : Engine where
  connect _ _ := none
  pragma _ _ := some .busy
  script _ _ := (0, some .busy)
  execute _ _ _ := .error .busy

namespace Session

/-- A session with a pragma for every connection. -/
def tuned : Session := .start [] ⟨Config.standardTimeout, false, [(nameA, .truth true)]⟩ ⟨.root, []⟩

/-- A program that opens a locked database and prepares a statement. -/
def facingLocked : Session := (tuned.run .locked [.openDatabase, .prepare (.text []) .empty]).2

/-- The pragma is warned of, and the statement reports the failure as an error
    of the library. -/
theorem failures_contained_locked :
    (⟨tuned, .openDatabase⟩ : Deed).notes .locked =
        [.pragmaIgnored (Text.ofString "PRAGMA a = ON;") [] (Text.ofString "database is locked"),
          .opened [] false] ∧
      (⟨tuned, .openDatabase⟩ : Deed).Contains .locked ∧
      (⟨facingLocked, .step 0⟩ : Deed).answer .locked =
        .error (.access (.engine ⟨Text.ofString "database is locked", some 5,
          some (Text.ofString "SQLITE_BUSY")⟩)) ∧
      (⟨facingLocked, .step 0⟩ : Deed).Contains .locked :=
  ⟨rfl,
    failures_contained .locked tuned (.start _ _ _) .openDatabase (fun _ => Command.noConfusion),
    rfl,
    failures_contained .locked facingLocked (reachable_run .locked _ _ _ (.start _ _ _)
      (fun _ _ => trivial)) (.step 0) (fun _ => Command.noConfusion)⟩

end Session

end RowScope
