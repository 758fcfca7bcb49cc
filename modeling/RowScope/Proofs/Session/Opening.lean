import RowScope.Proofs.Session.Transcript

/-!
# Opening and Closing

What opening and closing a database make of a session, said completely. Opening
a closed database finds out what to connect to, connects, and runs the pragmas
one after the other, and each of these can be the last thing that happens. So
there are four ends beside the one where the database is open, and in two of
them a connection was made that nobody will use.

The pragmas depend on the engine's past alone, so what they come to is told by a
transcript that starts with any engine's side of that past. Which of them were
run is told as well: all, or those up to a failure that was raised.

## Main definitions

* `Session.dialled`, `Session.linked`: A session after a connect, failed and
  successful.
* `Session.instructed`: A session after some pragmas.

## Theorems

* `runPragmas_told`: The pragmas up to a failure that is raised, with a warning
  for each failure that is not.
* `openDatabase_opened`, `openDatabase_cases`: Opening an open database, and a
  closed one.
* `closeDatabase_closed`, `closeDatabase_opened`: Closing.
-/

namespace RowScope

namespace Wire

/-- What pragmas come to depends on the engine's past alone. -/
theorem transcript_pragmas (e : Engine) (sqls : List Text) (w w' : Wire) (h : w.past = w'.past) :
    w.transcript e (sqls.map .pragma) = w'.transcript e (sqls.map .pragma) := by
  induction sqls generalizing w w' with
  | nil => rfl
  | cons sql rest ih =>
      simp only [List.map_cons, transcript, meet?, h]
      refine congrArg _ (ih _ _ ?_)
      simp only [after, asked, h]

end Wire

/-- Of a pragma, only what is no failure of the database is raised. -/
theorem Event.raised_pragma (sql : Text) (failure : Option EngineError) (x : EngineError)
    (h : Event.raised? ⟨.pragma sql, failure⟩ = some x) :
    failure = some x ∧ x.isDatabaseFailure = false := by
  simp only [raised?, Option.filter_eq_some_iff, Bool.not_eq_true'] at h
  exact h

theorem raised_pragmas (e : Engine) (w : Wire) (sqls : List Text) (x : EngineError)
    (h : x ∈ raised (w.transcript e (sqls.map .pragma))) : x.isDatabaseFailure = false := by
  induction sqls generalizing w with
  | nil => exact absurd h List.not_mem_nil
  | cons sql rest ih =>
      simp only [List.map_cons, Wire.transcript, raised, List.filterMap_cons] at h
      split at h
      · exact ih _ h
      · rename_i y hy
        rcases List.mem_cons.mp h with rfl | hrest
        · exact (Event.raised_pragma sql _ _ hy).2
        · exact ih _ hrest

namespace Session

/-- A session after a connect that has failed. -/
def dialled (s : Session) (target : Text) (uri : Bool) : Session :=
  (s.called (.connect target s.database.config.timeout uri)).asked (.connect target uri)

/-- A session after a connect that was successful. The connection is not in use
    yet. -/
def linked (s : Session) (target : Text) (uri : Bool) : Session :=
  { s.dialled target uri with connections := s.connections ++ [Connection.fresh] }

/-- A session after some pragmas, and after what was reported of them. -/
def instructed (s : Session) (sqls : List Text) (notes : List Diagnostic) : Session :=
  { s with
    past := s.past ++ sqls.map .pragma
    calls := s.calls ++ sqls.map .pragma
    log := s.log ++ notes }

theorem instructed_nil (s : Session) : s.instructed [] [] = s := by
  simp only [instructed, List.map_nil, List.append_nil]

theorem instructed_cons (s : Session) (sql : Text) (rest : List Text)
    (first notes : List Diagnostic) :
    (s.instructed [sql] first).instructed rest notes =
      s.instructed (sql :: rest) (first ++ notes) := by
  simp only [instructed, List.map_cons, List.map_nil, List.append_assoc, List.cons_append,
    List.nil_append]

/-- One pragma, and a warning if the database has refused it. -/
theorem runPragma_told (e : Engine) (sql : Text) (s : Session) (w : Wire) (hw : w.past = s.past) :
    s.runPragma e sql = (Event.raised? ⟨.pragma sql, w.meet? e (.pragma sql)⟩,
      s.instructed [sql]
        (Event.warning? s.database.path ⟨.pragma sql, w.meet? e (.pragma sql)⟩).toList) := by
  have hcalled : (s.called (.pragma sql)).past = s.past := rfl
  simp only [runPragma, Wire.meet?, Event.raised?, Event.warning?, hw, hcalled]
  rcases e.pragma s.past sql with _ | x
  · exact congrArg (Prod.mk none) (by
      simp only [called, asked, instructed, Option.filter_none, Option.map_none, Option.toList_none,
        List.append_nil, List.map_cons, List.map_nil])
  · rcases hx : x.isDatabaseFailure with _ | _
    · simp only [Option.filter_some, hx, Bool.not_false, if_true, Bool.false_eq_true, if_false,
        Option.map_none, Option.toList_none, instructed, List.append_nil]
      rfl
    · simp only [Option.filter_some, hx, Bool.not_true, if_true, Bool.false_eq_true, if_false,
        Option.map_some, Option.toList_some]
      rfl

/-- The pragmas are run up to a failure that is raised, or to the end if none
    is. What is only warned of does not keep the later ones from being run, so
    the warnings are those of all that were run. -/
theorem runPragmas_told (e : Engine) (sqls : List Text) (s : Session) (w : Wire)
    (hw : w.past = s.past) :
    ∃ done rest, sqls = done ++ rest ∧
      s.runPragmas e sqls = ((raised (w.transcript e (done.map .pragma))).head?,
        s.instructed done ((w.transcript e (done.map .pragma)).filterMap
          (Event.warning? s.database.path))) ∧
      (raised (w.transcript e (done.map .pragma)) = [] ∧ rest = [] ∨
        ∃ x, raised (w.transcript e (done.map .pragma)) = [x]) := by
  induction sqls generalizing s w with
  | nil =>
      refine ⟨[], [], rfl, ?_, Or.inl ⟨rfl, rfl⟩⟩
      exact congrArg (Prod.mk none) (s.instructed_nil).symm
  | cons sql rest ih =>
      have hone := runPragma_told e sql s w hw
      rcases hraised : Event.raised? ⟨.pragma sql, w.meet? e (.pragma sql)⟩ with _ | x
      · -- What is only warned of does not keep the later ones from being run.
        rw [hraised] at hone
        rcases ih (s.instructed [sql] _) (w.after e (.pragma sql))
          (congrArg (· ++ [Request.pragma sql]) hw) with ⟨done, left, heq, hrun, hends⟩
        have hcons : raised (w.transcript e ((sql :: done).map .pragma)) =
            raised ((w.after e (.pragma sql)).transcript e (done.map .pragma)) := by
          simp only [List.map_cons, Wire.transcript, raised, List.filterMap_cons, hraised]
        refine ⟨sql :: done, left, by rw [heq, List.cons_append], ?_, ?_⟩
        · rw [runPragmas, hone]
          refine hrun.trans ?_
          rw [hcons, instructed_cons]
          simp only [List.map_cons, Wire.transcript, List.filterMap_cons]
          rcases Event.warning? s.database.path ⟨.pragma sql, w.meet? e (.pragma sql)⟩ with _ | d
          · rfl
          · rfl
        · rw [hcons]
          exact hends
      · rw [hraised] at hone
        have hcons : raised (w.transcript e ([sql].map .pragma)) = [x] := by
          simp only [List.map_cons, List.map_nil, Wire.transcript, raised, List.filterMap_cons,
            hraised, List.filterMap_nil]
        refine ⟨[sql], rest, rfl, ?_, Or.inr ⟨x, hcons⟩⟩
        rw [runPragmas, hone, hcons]
        simp only [List.head?_cons, List.map_cons, List.map_nil, Wire.transcript,
          List.filterMap_cons, List.filterMap_nil]
        rcases Event.warning? s.database.path ⟨.pragma sql, w.meet? e (.pragma sql)⟩ with _ | d
        · rfl
        · rfl

/-! ### Opening -/

theorem openDatabase_opened (e : Engine) (s : Session) (c : ConnectionId)
    (opened : s.database.connection = some c) : s.openDatabase e = (.ok (), s) := by
  simp only [openDatabase, opened]

/-- What the pragmas of a configuration come to, where the connection was just
    made. -/
def briefing (e : Engine) (s : Session) (target : Text) (uri : Bool) (sqls : List Text) :
    List Event :=
  (s.linked target uri).wire.transcript e (sqls.map .pragma)

/-- The ends of opening a closed database. -/
inductive Opens (e : Engine) (s : Session) : Outcome Unit → Prop
  -- The path leads nowhere.
  | astray (f : Fault)
      (path : Path.target s.database.config.readOnly s.database.here s.database.path = .error f) :
      Opens e s (.error f, s)
  -- The connect fails.
  | unconnected (target : Text) (uri : Bool) (x : EngineError)
      (path : Path.target s.database.config.readOnly s.database.here s.database.path =
        .ok (target, uri))
      (failed : e.connect s.past target = some x) :
      Opens e s (.error (.ofEngine x), s.dialled target uri)
  -- The pragmas cannot be written.
  | unwritten (target : Text) (uri : Bool) (f : SettingFault)
      (path : Path.target s.database.config.readOnly s.database.here s.database.path =
        .ok (target, uri))
      (connected : e.connect s.past target = none)
      (written : s.database.config.pragmaStatements = .error f) :
      Opens e s (.error (.setting f), s.linked target uri)
  -- A pragma fails, and not because the database has refused it.
  | interrupted (target : Text) (uri : Bool) (done rest : List Text) (x : EngineError)
      (path : Path.target s.database.config.readOnly s.database.here s.database.path =
        .ok (target, uri))
      (connected : e.connect s.past target = none)
      (written : s.database.config.pragmaStatements = .ok (done ++ rest))
      (interrupted : raised (s.briefing e target uri done) = [x]) :
      Opens e s (.error (.engine x), (s.linked target uri).instructed done
        ((s.briefing e target uri done).filterMap (Event.warning? s.database.path)))
  -- The database is open.
  | opened (target : Text) (uri : Bool) (sqls : List Text)
      (path : Path.target s.database.config.readOnly s.database.here s.database.path =
        .ok (target, uri))
      (connected : e.connect s.past target = none)
      (written : s.database.config.pragmaStatements = .ok sqls)
      (finished : raised (s.briefing e target uri sqls) = []) :
      Opens e s (.ok (), ((s.linked target uri).instructed sqls
        ((s.briefing e target uri sqls).filterMap (Event.warning? s.database.path))).adopt
          s.connections.length)

/-- Behind a connect that was successful there is a connection, which comes into
    use if none of the pragmas fails. -/
theorem connect_linked (e : Engine) (s : Session) (target : Text) (uri : Bool)
    (connected : e.connect s.past target = none) :
    s.connect e target uri = match s.database.config.pragmaStatements with
      | .error f => (.error (.setting f), s.linked target uri)
      | .ok sqls => match (s.linked target uri).runPragmas e sqls with
        | (some x, t) => (.error (.engine x), t)
        | (none, t) => (.ok (), t.adopt s.connections.length) := by
  have hpast : (s.called (.connect target s.database.config.timeout uri)).past = s.past := rfl
  rw [connect]
  simp only [hpast, connected]
  rfl

/-- Opening a closed database comes to one of these ends. The case splits are
    those of the program: the path, the connect, the pragmas as text, and the
    pragmas as they are run. -/
theorem openDatabase_cases (e : Engine) (s : Session) (closed : s.database.connection = none) :
    Opens e s (s.openDatabase e) := by
  rcases hpath : Path.target s.database.config.readOnly s.database.here s.database.path with
    f | ⟨target, uri⟩
  · simp only [openDatabase, closed, hpath]
    exact .astray f hpath
  · have hopen : s.openDatabase e = s.connect e target uri := by
      simp only [openDatabase, closed, hpath]
    rw [hopen]
    rcases hconnect : e.connect s.past target with _ | x
    · rw [connect_linked e s target uri hconnect]
      rcases hwritten : s.database.config.pragmaStatements with f | sqls
      · exact .unwritten target uri f hpath hconnect hwritten
      · -- The pragmas split into those that were run and the rest, which begins
        -- with the one that failed.
        rcases runPragmas_told e sqls (s.linked target uri) (s.linked target uri).wire rfl with
          ⟨done, rest, rfl, hrun, ⟨hnone, rfl⟩ | ⟨x, hx⟩⟩
        · rw [hnone] at hrun
          simp only [hrun, List.head?_nil]
          rw [List.append_nil] at hwritten
          exact .opened target uri done hpath hconnect hwritten hnone
        · rw [hx] at hrun
          simp only [hrun, List.head?_cons]
          exact .interrupted target uri done rest x hpath hconnect hwritten hx
    · have hpast : (s.called (.connect target s.database.config.timeout uri)).past = s.past := rfl
      rw [connect]
      simp only [hpast, hconnect]
      exact .unconnected target uri x hpath hconnect

/-! ### Closing -/

theorem closeDatabase_closed (s : Session) (closed : s.database.connection = none) :
    s.closeDatabase = s := by
  simp only [closeDatabase, closed]

theorem closeDatabase_opened (s : Session) (c : ConnectionId)
    (opened : s.database.connection = some c) :
    s.closeDatabase = { s with
      calls := s.calls ++ [.disconnect c]
      connections := s.connections.modify c fun connection => { connection with isOpen := false }
      database := { s.database with connection := none }
      log := s.log ++ [.closed s.database.path] } := by
  simp only [closeDatabase, opened]
  rfl

end Session

end RowScope
