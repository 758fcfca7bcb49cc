import Mathlib
import RowScope.Proofs.CommandLine.CleanUp
import RowScope.Proofs.CommandLine.Printout
import RowScope.Proofs.Session.ReadOnly

/-!
# Outcomes

How a run ends. Let every failure of the engine be one of the database, and let
the configuration be one whose pragmas can be written. Then a run ends with exit
code 0 or 1, and which of the two is up to the engine alone: 0 if the connect is
successful, the execution is, and so is the fetch of every row. Pragmas have no
say in it. In both cases the run has cleaned up behind itself.

A path that is opened for reading only is written in bytes, so it has to be a
text that stands for some. The words of a command line do. A path that does not
ends the run before anything is called, by a fault that no one catches.

## Main definitions

* `Engine.BehavesWell`: What a run relies on.
* `Engine.Completes`: The connect, the execution and all fetches are successful.
* `Arguments.Concludes`: How a run ends, and what it leaves behind.

## Theorems

* `firstFailure_eq_none_iff`: When nothing fails in an execution.
* `printRows_ends`: How printing a result ends.
* `printFromDatabase_ends`: How printing ends that opens the database first.
* `run_concludes`: Runs end with exit code 0 or 1, and clean up.
* `run_inconclusive`: A path that stands for no bytes.
-/

namespace RowScope

/-- What a run relies on: failures are failures of the database, the rows of a
    result are as wide as the result and of cells that engines deliver, and the
    names of columns are text. -/
structure Engine.BehavesWell (e : Engine) : Prop extends e.FailsProperly where
  execution : ∀ past sql params x,
    firstFailure (Answer.yields (e.execute past sql params)) = some x → x.isDatabaseFailure = true
  rows : ∀ past sql params, ∀ row ∈ beforeFailure (Answer.yields (e.execute past sql params)),
    row.length = (Answer.names (e.execute past sql params)).length ∧ ∀ c ∈ row, c.IsDelivered
  names : ∀ past sql params, ∀ name ∈ Answer.names (e.execute past sql params), name.IsEncodable

/-- The connect is successful, and after these pragmas so are the execution of
    some SQL and the fetch of every row. -/
def Engine.Completes (e : Engine) (target : Text) (uri : Bool) (pragmas : List Text) (sql : Sql) :
    Prop :=
  e.connect [] target = none ∧
    ∃ answer, e.execute (.connect target uri :: pragmas.map .pragma) sql .empty = .ok answer ∧
      ∀ fetched ∈ answer.rows, fetched.isOk = true

/-- No fetch fails if and only if each of them is successful. -/
theorem firstFailure_rows (rows : List (Except EngineError Row)) :
    firstFailure rows = none ↔ ∀ fetched ∈ rows, fetched.isOk = true := by
  induction rows with
  | nil => exact ⟨fun _ _ hf => absurd hf List.not_mem_nil, fun _ => rfl⟩
  | cons fetched rest ih =>
      rw [List.forall_mem_cons]
      cases fetched with
      | error x =>
          constructor
          · intro h
            cases h
          · intro h
            cases h.1
      | ok row => exact ih.trans ⟨fun h => ⟨rfl, h⟩, fun h => h.2⟩

/-- Nothing fails if and only if the execution is successful and so is every
    fetch. -/
theorem firstFailure_eq_none_iff (answer : Except EngineError Answer) :
    firstFailure (Answer.yields answer) = none ↔
      ∃ a, answer = .ok a ∧ ∀ fetched ∈ a.rows, fetched.isOk = true := by
  cases answer with
  | error x =>
      constructor
      · intro h
        cases h
      · rintro ⟨a, ha, -⟩
        cases ha
  | ok a =>
      rw [Answer.yields, firstFailure_rows]
      constructor
      · intro h
        exact ⟨a, rfl, h⟩
      · rintro ⟨b, hb, hrows⟩
        rw [Except.ok.inj hb]
        exact hrows

namespace Session

/-- Printing a result ends as its execution and its fetches do, and whatever was
    printed can be written. How it ends is known without counting rows, so less
    is said here than of the printout itself. -/
theorem printRows_ends (e : Engine) (he : e.BehavesWell) (style : RowStyle) (sql : Sql)
    (s : Session) (k : ConnectionId) (hopen : s.database.connection = some k)
    (hconnected : s.isConnected k = true) :
    ∃ p t, s.printRows e style sql =
        (ending (firstFailure (Answer.yields (e.execute s.past sql .empty))), p, t) ∧
      (Text.encode p.output).isSome = true := by
  rcases newStatement_prints e s k sql hconnected with ⟨hprints, houtlook, hheading⟩
  rcases loops_prints style _ (fun _ => he.names s.past sql .empty) _ (he.rows s.past sql .empty)
    (p := .empty) hprints houtlook hheading with ⟨p, t, hloops, -, hgrows⟩
  have hbound := rows_bounded e hprints
  rw [houtlook] at hbound
  refine ⟨p, t.closeStatement s.statements.length,
    printRows_of_all hopen (printFrom_of_loops hloops _ hbound), ?_⟩
  rw [hgrows.encode]
  rfl

/-- If the database could be opened, a run ends as its rows do: with 0 if
    nothing has failed, and with 1 if something has, as every failure is one of
    the database and so an error of the library. -/
theorem printFromDatabase_ends (e : Engine) (he : e.BehavesWell) (style : RowStyle) (sql : Sql)
    (s u : Session) (hopen : s.openDatabase e = (.ok (), u)) (k : ConnectionId)
    (opened : u.database.connection = some k) (connected : u.isConnected k = true) :
    (s.printFromDatabase e style sql).1 =
        .exit (if (firstFailure (Answer.yields (e.execute u.past sql .empty))).isNone then 0
          else 1) ∧
      (Text.encode (s.printFromDatabase e style sql).2.1).isSome = true := by
  rcases printRows_ends e he style sql u k opened connected with ⟨p, t, hprinted, hencoded⟩
  rcases hfailure : firstFailure (Answer.yields (e.execute u.past sql .empty)) with _ | x
  · rw [hfailure] at hprinted
    simp only [printFromDatabase, hopen, hprinted, ending]
    exact ⟨rfl, hencoded⟩
  · have hdatabase : Fault.ofEngine x = .access (.ofEngine x) := by
      rw [Fault.ofEngine, if_pos (he.execution _ _ _ x hfailure)]
    rw [hfailure] at hprinted
    simp only [printFromDatabase, hopen, hprinted, ending, hdatabase]
    exact ⟨rfl, hencoded⟩

end Session

namespace Arguments

/-- How a run ends, and what it leaves behind, where so much is asked of the
    engine. -/
structure Concludes (a : Arguments) (around : Surroundings) (e : Engine) (config : Config)
    (target : Text) (uri : Bool) (pragmas : List Text) (r : Run) : Prop where
  zero : r.ending = .exit 0 ↔ e.Completes target uri pragmas a.sql
  one : ¬ e.Completes target uri pragmas a.sql → r.ending = .exit 1
  encodable : (Text.encode r.output).isSome = true
  /-- What was called in the run was called in the session that the run ends
      with. -/
  calls : r.calls = (a.finished around e config).calls
  cleansUp : (a.finished around e config).CleansUp
  /-- There is one connection to clean up and one cursor, or none. -/
  connections : (a.finished around e config).connections.length =
    if (e.connect [] target).isNone then 1 else 0
  handles : (a.finished around e config).handles.length =
    if (e.connect [] target).isNone then 1 else 0

/-- A run whose configuration is loaded prints from the database, and ends,
    writes and calls what this does. -/
theorem run_loaded (a : Arguments) (around : Surroundings) (e : Engine) (config : Config)
    (loaded : Config.load (a.configFile around).2 = .ok config) :
    (a.run around e).ending = ((a.begun around config).printFromDatabase e a.style a.sql).1 ∧
      (a.run around e).output = ((a.begun around config).printFromDatabase e a.style a.sql).2.1 ∧
      (a.run around e).calls = (a.finished around e config).calls := by
  simp only [run, loaded]
  exact ⟨rfl, rfl, rfl⟩

section

variable {a : Arguments} {around : Surroundings} {e : Engine} {config : Config} {target : Text}
  {uri : Bool} {pragmas : List Text}

/-- A run whose database has no target ends before anything is called. The fault
    is not one of the library, so it is passed on instead of being turned into
    an exit code. -/
theorem run_unplaced (loaded : Config.load (a.configFile around).2 = .ok config)
    (htarget : Path.target config.readOnly around.here a.database = .error .pathNotEncodable) :
    (a.run around e).ending = .failed .pathNotEncodable ∧ (a.run around e).output = [] ∧
      (a.run around e).calls = [] := by
  rcases a.run_loaded around e config loaded with ⟨hending, houtput, hcalls⟩
  have hopen : (a.begun around config).openDatabase e =
      (.error .pathNotEncodable, a.begun around config) := by
    rcases Session.openDatabase_dials e (a.begun around config) rfl with
      ⟨f, hf, hsame⟩ | ⟨target, uri, pragmas, hpath, -⟩
    · obtain rfl := Except.error.inj (htarget.symm.trans hf)
      exact hsame
    · cases htarget.symm.trans hpath
  have hprinted : (a.begun around config).printFromDatabase e a.style a.sql =
      (.failed .pathNotEncodable, [], a.begun around config) := by
    simp only [Session.printFromDatabase, hopen]
    rfl
  rw [hending, houtput, hcalls, finished, hprinted]
  exact ⟨rfl, rfl, rfl⟩

/-- A run whose connect fails ends with 1, having made nothing. -/
theorem concludes_unconnected (loaded : Config.load (a.configFile around).2 = .ok config)
    {x : EngineError} (failed : e.connect [] target = some x)
    (hopen : (a.begun around config).openDatabase e =
      (.error (.access (.ofEngine x)), (a.begun around config).dialled target uri)) :
    a.Concludes around e config target uri pragmas (a.run around e) := by
  rcases a.run_loaded around e config loaded with ⟨hending, houtput, hcalls⟩
  have hone : (a.run around e).ending = .exit 1 := by
    rw [hending]
    simp only [Session.printFromDatabase, hopen]
    rfl
  -- Without a connection nothing can be completed.
  have hnot : ¬ e.Completes target uri pragmas a.sql := by
    rintro ⟨hnone, -⟩
    rw [failed] at hnone
    cases hnone
  rcases finished_unconnected hopen with ⟨hclean, hconnections, hhandles⟩
  refine ⟨⟨fun hzero => ?_, fun hcompletes => absurd hcompletes hnot⟩, fun _ => hone, ?_, hcalls,
    hclean, ?_, ?_⟩
  · rw [hone] at hzero
    cases hzero
  · rw [houtput]
    simp only [Session.printFromDatabase, hopen]
    rfl
  · rw [failed]
    exact hconnections
  · rw [failed]
    exact hhandles

/-- A run whose connect is successful ends as its rows do. What the engine was
    asked before them is the connect and the pragmas, whatever these have come
    to, so the execution that decides can be named. -/
theorem concludes_connected (he : e.BehavesWell)
    (loaded : Config.load (a.configFile around).2 = .ok config)
    (connected : e.connect [] target = none)
    (hopen : (a.begun around config).openDatabase e =
      (.ok (), (a.begun around config).briefed e target uri pragmas)) :
    a.Concludes around e config target uri pragmas (a.run around e) := by
  rcases a.run_loaded around e config loaded with ⟨hending, houtput, hcalls⟩
  rcases Session.printFromDatabase_ends e he a.style a.sql _ _ hopen 0 rfl rfl with
    ⟨hends, hencoded⟩
  rw [← hending] at hends
  rw [← houtput] at hencoded
  -- What was asked before the rows is known.
  have hpast : ((a.begun around config).briefed e target uri pragmas).past =
      .connect target uri :: pragmas.map .pragma := rfl
  rw [hpast] at hends
  have hcompletes : e.Completes target uri pragmas a.sql ↔ firstFailure (Answer.yields
      (e.execute (.connect target uri :: pragmas.map .pragma) a.sql .empty)) = none := by
    rw [firstFailure_eq_none_iff, Engine.Completes]
    exact ⟨fun h => h.2, fun h => ⟨connected, h⟩⟩
  have hcode : (a.run around e).ending = .exit 0 ∧ e.Completes target uri pragmas a.sql ∨
      (a.run around e).ending = .exit 1 ∧ ¬ e.Completes target uri pragmas a.sql := by
    rw [hcompletes, hends]
    rcases firstFailure (Answer.yields
      (e.execute (.connect target uri :: pragmas.map .pragma) a.sql .empty)) with _ | x
    · exact Or.inl ⟨rfl, rfl⟩
    · exact Or.inr ⟨rfl, Option.some_ne_none x⟩
  rcases finished_connected hopen with ⟨hclean, hconnections, hhandles⟩
  rw [← show (if (e.connect [] target).isNone then 1 else 0) = 1 by rw [connected]; rfl]
    at hconnections hhandles
  rcases hcode with ⟨hzero, hdone⟩ | ⟨hone, hnot⟩
  · exact ⟨⟨fun _ => hdone, fun _ => hzero⟩, fun hnot => absurd hdone hnot, hencoded, hcalls,
      hclean, hconnections, hhandles⟩
  · refine ⟨⟨fun hzero => ?_, fun hdone => absurd hdone hnot⟩, fun _ => hone, hencoded, hcalls,
      hclean, hconnections, hhandles⟩
    rw [hone] at hzero
    cases hzero

end

end Arguments

/-- How a run ends, and that it cleans up. Let the command line be understood,
    and let the configuration be loaded, with integers in its pragmas that are
    not too long. Let the path of the database have no NUL in it, and let the
    program be at a place that can be written in bytes if a file is opened for
    reading only.

    If the path is not opened for reading only, or can be written in bytes as
    well, the run ends with exit code 0 if and only if the connect is successful
    and the statement runs to completion, and with exit code 1 otherwise. In
    both cases its connection was closed and its cursor was closed, each of them
    once. If the path cannot be written in bytes, the run ends with a fault that
    is not of the library. Then nothing was called, so there is nothing to clean
    up. -/
theorem CommandLine.run_concludes (around : Surroundings) (e : Engine) (argv : List Text)
    (a : Arguments) (config : Config) (parsed : Arguments.parse argv = .ok a)
    (loaded : Config.load (a.configFile around).2 = .ok config)
    (written : ∀ p ∈ config.pragmas, p.2.isWritten = true) (nul : ∀ c ∈ a.database, c.val ≠ 0)
    (placed : config.readOnly = true → a.database ≠ memoryPath → around.here.IsEncodable)
    (he : e.BehavesWell) :
    ((config.readOnly = true → a.database ≠ memoryPath → a.database.IsEncodable) →
      ∃ target uri pragmas, Path.target config.readOnly around.here a.database = .ok (target, uri) ∧
        config.pragmaStatements = .ok pragmas ∧
        a.Concludes around e config target uri pragmas (CommandLine.run around e argv)) ∧
    (config.readOnly = true → a.database ≠ memoryPath → ¬ a.database.IsEncodable →
      (CommandLine.run around e argv).ending = .failed .pathNotEncodable ∧
        (CommandLine.run around e argv).output = [] ∧
        (CommandLine.run around e argv).calls = []) := by
  have hrun : CommandLine.run around e argv = a.run around e := by
    simp only [CommandLine.run, parsed]
  rw [hrun]
  constructor
  · intro encodable
    rcases Path.target_isOk config.readOnly around.here a.database nul
      (fun readOnly file => ⟨encodable readOnly file, placed readOnly file⟩) with
      ⟨target, uri, htarget⟩
    rcases config.pragmaStatements_written written with ⟨pragmas, hpragmas, -⟩
    refine ⟨target, uri, pragmas, htarget, hpragmas, ?_⟩
    rcases Session.openDatabase_proper e he.toFailsProperly (a.begun around config) rfl target uri
      pragmas htarget hpragmas with ⟨x, hfailed, hopen⟩ | ⟨hconnected, hopen⟩
    · exact Arguments.concludes_unconnected loaded hfailed hopen
    · exact Arguments.concludes_connected he loaded hconnected hopen
  · intro readOnly file unencodable
    -- The path is refused on its way to a reference, before the engine is
    -- called.
    have htarget : Path.target config.readOnly around.here a.database =
        .error .pathNotEncodable := by
      rw [readOnly]
      exact Path.target_unencodable around.here a.database ⟨file, nul⟩ unencodable
    exact Arguments.run_unplaced loaded htarget

/-- Surroundings whose configuration asks for reading only. -/
def Surroundings.readingOnly : Surroundings where
  files _ := .missing
  bundled := .content "[connection]\nreadonly = true\n".toUTF8.toList
  bundledPath := []
  here := ⟨.root, [Text.ofChars ['d']]⟩

theorem Surroundings.readingOnly_loaded :
    Config.load readingOnly.bundled = .ok ⟨Config.standardTimeout, true, []⟩ := by
  have entries : Toml.parseBytes "[connection]\nreadonly = true\n".toUTF8.toList =
      some (.ok [(Text.ofString "connection", .table
        [(Text.ofString "readonly", .truth true)])]) := by
    cbv
  rw [readingOnly, Config.load, entries]
  rfl

theorem Engine.flawed_behavesWell : Engine.flawed.BehavesWell where
  connect _ _ _ h := by cases h
  pragma _ _ _ h := by cases h
  execution _ _ _ x h := by
    rw [← Option.some.inj h]
    rfl
  rows _ _ _ row hrow := by
    rcases List.mem_cons.mp hrow with rfl | hrow
    · exact ⟨rfl, List.forall_mem_cons.mpr ⟨.integer (-7) (by decide) (by decide),
        List.forall_mem_singleton.mpr (.text [0xFF])⟩⟩
    · rw [List.mem_singleton.mp hrow]
      exact ⟨rfl, List.forall_mem_cons.mpr ⟨.null, List.forall_mem_singleton.mpr (.blob [0x00])⟩⟩
  names _ _ _ name hname := by
    rcases List.mem_cons.mp hname with rfl | hname
    · exact Text.ofChars_isEncodable ['a']
    · rw [List.mem_singleton.mp hname]
      exact Text.ofChars_isEncodable ['b']

/-- Two rows are printed and the third one cannot be fetched: the run ends with
    exit code 1, and both the connection and the cursor were closed once. -/
theorem CommandLine.run_concludes_flawed :
    (CommandLine.run .readingOnly .flawed [[0x74], [0x73]]).ending = .exit 1 ∧
      (CommandLine.run .readingOnly .flawed [[0x74], [0x73]]).calls.countP
        (Call.disconnects 0) = 1 ∧
      (CommandLine.run .readingOnly .flawed [[0x74], [0x73]]).calls.countP (Call.closes 0) = 1 := by
  have parsed : Arguments.parse [[0x74], [0x73]] =
      .ok ⟨[0x74], .text [0x73], false, none, false, false⟩ := by
    cbv
  have encodable : Text.IsEncodable [0x74] ∧ Surroundings.readingOnly.here.IsEncodable := by
    refine ⟨Text.ofChars_isEncodable ['t'], fun name hname => ?_⟩
    rw [List.mem_singleton.mp hname]
    exact Text.ofChars_isEncodable ['d']
  have nul : ∀ c ∈ ([0x74] : Text), c.val ≠ 0 := by
    intro c hc
    rw [List.mem_singleton.mp hc]
    decide
  rcases (CommandLine.run_concludes .readingOnly .flawed [[0x74], [0x73]] _ _ parsed
      Surroundings.readingOnly_loaded (fun _ hp => absurd hp List.not_mem_nil) nul
      (fun _ _ => encodable.2) Engine.flawed_behavesWell).1 (fun _ _ => encodable.1) with
    ⟨target, uri, pragmas, -, -, hconcludes⟩
  -- The third row is no row.
  have hnot : ¬ Engine.flawed.Completes target uri pragmas (.text [0x73]) := by
    rintro ⟨-, answer, hanswer, hrows⟩
    obtain rfl := Except.ok.inj hanswer
    exact absurd (hrows (.error ⟨.operational, [], none, none⟩) (by simp only [List.mem_cons,
      true_or, or_true])) Bool.false_ne_true
  refine ⟨hconcludes.one hnot, ?_, ?_⟩
  · rw [hconcludes.calls, hconcludes.cleansUp.disconnected, hconcludes.connections]
    rfl
  · rw [hconcludes.calls, hconcludes.cleansUp.closed, hconcludes.handles]
    rfl

/-- A path that is one lone surrogate stands for no bytes. If it is to be opened
    for reading only, the run ends with neither exit code, although the command
    line is understood, the configuration is loaded, and the engine fails only
    as it should. -/
theorem CommandLine.run_inconclusive :
    Arguments.parse [[0xD800], [0x73]] =
        .ok ⟨[0xD800], .text [0x73], false, none, false, false⟩ ∧
      Config.load Surroundings.readingOnly.bundled = .ok ⟨Config.standardTimeout, true, []⟩ ∧
      Engine.flawed.BehavesWell ∧
      (CommandLine.run .readingOnly .flawed [[0xD800], [0x73]]).ending =
        .failed .pathNotEncodable ∧
      ¬ ∃ code, (CommandLine.run .readingOnly .flawed [[0xD800], [0x73]]).ending =
        .exit code := by
  have parsed : Arguments.parse [[0xD800], [0x73]] =
      .ok ⟨[0xD800], .text [0x73], false, none, false, false⟩ := by
    cbv
  have hrun : CommandLine.run .readingOnly .flawed [[0xD800], [0x73]] =
      Arguments.run ⟨[0xD800], .text [0x73], false, none, false, false⟩ .readingOnly .flawed := by
    simp only [CommandLine.run, parsed]
  have hending : (CommandLine.run .readingOnly .flawed [[0xD800], [0x73]]).ending =
      .failed .pathNotEncodable := by
    have loaded : Config.load (Arguments.configFile
        ⟨[0xD800], .text [0x73], false, none, false, false⟩ .readingOnly).2 =
          .ok ⟨Config.standardTimeout, true, []⟩ := Surroundings.readingOnly_loaded
    rw [hrun]
    exact (Arguments.run_unplaced loaded rfl).1
  refine ⟨parsed, Surroundings.readingOnly_loaded, Engine.flawed_behavesWell, hending, ?_⟩
  rintro ⟨code, hcode⟩
  cases hending.symm.trans hcode

end RowScope
