import RowScope.Proofs.Path.Reference
import RowScope.Proofs.Session.Lifecycle

/-!
# Opening for Reading Only

What a database that must not be written to connects to. Its path is given by a
program or by someone at a command line, and is not to be trusted: a path could
try to end the reference early, to bring a query of its own, or to have another
file opened than the one it names.

The target depends on the path, on the configuration and on where the program
runs, and a session changes none of them. So there is one target for all
connects of a session, and it is enough to know what the path becomes.

Two paths lead to the same file exactly if their normalised paths have the same
bytes. For paths that come from the system, which are decoded bytes, this is to
say that the normalised paths are the same. For others it is not: two strays can
be written where one character would do.

## Main definitions

* `Dials`: All connects of a session are to where its path leads.
* `ConnectsTo`, `NeverConnects`: One target for all connects, and none.

## Theorems

* `Dials.perform`, `Dials.run`: No command connects to anywhere else.
* `readOnly_targets`: What is connected to, and that nothing else can be.
* `readOnly_targets_shared`: Two paths that are connected to one file.
-/

namespace RowScope

namespace Session

/-- A session whose settings are these, and whose connects were all to where the
    path leads. -/
structure Dials (path : Text) (config : Config) (here : Path) (s : Session) : Prop where
  path_eq : s.database.path = path
  config_eq : s.database.config = config
  here_eq : s.database.here = here
  past : ∀ target timeout uri, Call.connect target timeout uri ∈ s.calls →
    Path.target config.readOnly here path = .ok (target, uri)

/-- All connects of a session are to one target as a reference, those that were
    made and the one that is to come if the database is opened again. -/
structure ConnectsTo (e : Engine) (target : Text) (s : Session) : Prop where
  past : ∀ other timeout uri, Call.connect other timeout uri ∈ s.calls →
    other = target ∧ uri = true
  next : s.database.isOpen = false → ∃ pragmas : List Text, (s.openDatabase e).2.calls =
    s.calls ++ .connect target s.database.config.timeout true :: pragmas.map .pragma

/-- There was no connect, and there will be none, since the path cannot be
    encoded. -/
structure NeverConnects (e : Engine) (s : Session) : Prop where
  past : ∀ target timeout uri, Call.connect target timeout uri ∉ s.calls
  next : s.database.isOpen = false → s.openDatabase e = (.error .pathNotEncodable, s)

/-! ### Connects -/

/-- Opening a closed database is refused for the path, or is a connect to where
    it leads with some pragmas behind. -/
theorem openDatabase_dials (e : Engine) (s : Session) (closed : s.database.connection = none) :
    (∃ f, Path.target s.database.config.readOnly s.database.here s.database.path = .error f ∧
      s.openDatabase e = (.error f, s)) ∨
    ∃ target uri, ∃ pragmas : List Text,
      Path.target s.database.config.readOnly s.database.here s.database.path = .ok (target, uri) ∧
      (s.openDatabase e).2.calls =
        s.calls ++ .connect target s.database.config.timeout uri :: pragmas.map .pragma := by
  have hcases := openDatabase_cases e s closed
  have behind : ∀ (target : Text) (uri : Bool) (ks : List Call),
      (s.linked target uri).calls ++ ks =
        s.calls ++ .connect target s.database.config.timeout uri :: ks := by
    intro target uri ks
    exact List.append_assoc s.calls [_] ks
  generalize s.openDatabase e = o at hcases ⊢
  cases hcases with
  | astray f path => exact Or.inl ⟨f, path, rfl⟩
  | unconnected target uri x path failed => exact Or.inr ⟨target, uri, [], path, rfl⟩
  | unwritten target uri f path connected written => exact Or.inr ⟨target, uri, [], path, rfl⟩
  | interrupted target uri done rest x path connected written interrupted =>
      exact Or.inr ⟨target, uri, done, path, behind target uri _⟩
  | opened target uri sqls path connected written finished =>
      exact Or.inr ⟨target, uri, sqls, path, behind target uri _⟩

/-- A command connects to nothing but where the path leads. Only opening
    connects at all, and it connects once, before the pragmas. -/
theorem perform_dials (e : Engine) (c : Command) (s : Session) (separate : s.Separate)
    (target : Text) (timeout : Binary64) (uri : Bool)
    (h : Call.connect target timeout uri ∈ (s.perform e c).2.calls) :
    Call.connect target timeout uri ∈ s.calls ∨
      Path.target s.database.config.readOnly s.database.here s.database.path =
        .ok (target, uri) := by
  have opening : Call.connect target timeout uri ∈ (s.openDatabase e).2.calls →
      Call.connect target timeout uri ∈ s.calls ∨
        Path.target s.database.config.readOnly s.database.here s.database.path =
          .ok (target, uri) := by
    intro hopened
    rcases hopen : s.database.connection with _ | k
    · rcases openDatabase_dials e s hopen with ⟨f, -, hsame⟩ | ⟨t, u, pragmas, hpath, hcalls⟩
      · rw [hsame] at hopened
        exact Or.inl hopened
      · rw [hcalls] at hopened
        rcases List.mem_append.mp hopened with hbefore | hnew
        · exact Or.inl hbefore
        · rcases List.mem_cons.mp hnew with heq | hpragma
          · cases heq
            exact Or.inr hpath
          · rcases List.mem_map.mp hpragma with ⟨sql, -, hsql⟩
            cases hsql
    · rw [openDatabase_opened e s k hopen] at hopened
      exact Or.inl hopened
  rcases apart : c.connects with _ | _
  · -- Commands that do not concern the connection do only work.
    rcases perform_follows e c s separate apart with ⟨ks, hf, hwork⟩
    rw [hf.calls] at h
    rcases List.mem_append.mp h with hbefore | hnew
    · exact Or.inl hbefore
    · cases hwork _ hnew
  · cases c with
    | openDatabase =>
        simp only [perform, plainly_state] at h
        exact opening h
    | enter =>
        simp only [perform, plainly_state] at h
        exact opening h
    | closeDatabase =>
        rcases hopen : s.database.connection with _ | k
        · simp only [perform, closeDatabase_closed s hopen] at h
          exact Or.inl h
        · simp only [perform, closeDatabase_opened s k hopen] at h
          rcases List.mem_append.mp h with hbefore | hnew
          · exact Or.inl hbefore
          · cases List.mem_singleton.mp hnew
    | _ => cases apart

namespace Dials

section

variable {path : Text} {config : Config} {here : Path}

theorem start : (Session.start path config here).Dials path config here :=
  ⟨rfl, rfl, rfl, fun _ _ _ h => absurd h List.not_mem_nil⟩

/-- No command connects to anywhere else, and none changes the settings that
    decide where that is. -/
theorem perform (e : Engine) (c : Command) (s : Session) (separate : s.Separate)
    (hs : s.Dials path config here) : (s.perform e c).2.Dials path config here := by
  rcases perform_settings e c s separate with ⟨connection, hdatabase⟩
  refine ⟨?_, ?_, ?_, ?_⟩
  · rw [hdatabase]
    exact hs.path_eq
  · rw [hdatabase]
    exact hs.config_eq
  · rw [hdatabase]
    exact hs.here_eq
  · intro target timeout uri hcall
    rcases perform_dials e c s separate target timeout uri hcall with hbefore | hpath
    · exact hs.past target timeout uri hbefore
    · rw [← hs.path_eq, ← hs.config_eq, ← hs.here_eq]
      exact hpath

theorem run (e : Engine) (cs : List Command) (s : Session)
    (reachable : Reachable e (fun _ => True) s) (hs : s.Dials path config here) :
    (s.run e cs).2.Dials path config here := by
  induction cs generalizing s with
  | nil => exact hs
  | cons c rest ih =>
      exact ih _ (reachable.perform c trivial)
        (hs.perform e c s (reachable_separate e _ s reachable))

/-- What a session becomes connected to if its path leads somewhere. -/
theorem connectsTo (e : Engine) {s : Session} (hs : s.Dials path config here) (target : Text)
    (htarget : Path.target config.readOnly here path = .ok (target, true)) :
    s.ConnectsTo e target where
  past := by
    intro other timeout uri hcall
    have hother := hs.past other timeout uri hcall
    rw [htarget, Except.ok.injEq, Prod.mk.injEq] at hother
    exact ⟨hother.1.symm, hother.2.symm⟩
  next := by
    intro closed
    rw [← hs.path_eq, ← hs.config_eq, ← hs.here_eq] at htarget
    rcases openDatabase_dials e s (connection_of_closed s closed) with
      ⟨f, hf, -⟩ | ⟨t, uri, pragmas, hpath, hcalls⟩
    · rw [htarget] at hf
      cases hf
    · rw [htarget] at hpath
      cases hpath
      exact ⟨pragmas, hcalls⟩

/-- What a session becomes whose path cannot be encoded: it is refused before
    the engine is called. -/
theorem neverConnects (e : Engine) {s : Session} (hs : s.Dials path config here)
    (htarget : Path.target config.readOnly here path = .error .pathNotEncodable) :
    s.NeverConnects e where
  past := by
    intro target timeout uri hcall
    have hother := hs.past target timeout uri hcall
    rw [htarget] at hother
    cases hother
  next := by
    intro closed
    rw [← hs.path_eq, ← hs.config_eq, ← hs.here_eq] at htarget
    rcases openDatabase_dials e s (connection_of_closed s closed) with
      ⟨f, hf, hsame⟩ | ⟨t, uri, pragmas, hpath, -⟩
    · rw [htarget] at hf
      cases hf
      exact hsame
    · rw [htarget] at hpath
      cases hpath

end

end Dials

/-- A program's own session dials where its path leads, after whatever
    commands. -/
theorem start_dials (path : Text) (config : Config) (here : Path) (e : Engine)
    (cs : List Command) :
    ((Session.start path config here).run e cs).2.Dials path config here :=
  Dials.start.run e cs _ (.start path config here)

/-- What a path without NUL becomes when it is opened for reading only, wherever
    one is. A path that stands for bytes is opened by a reference to its
    normalised path, and nothing in it can make the reference ask for anything
    else. A path that stands for none is not opened at all.

    Two paths have one reference exactly if their normalised paths have the same
    bytes. Different texts can have the same bytes, so this is less than that
    the normalised paths are the same. For paths that are decoded bytes, as all
    that come from the system are, it is not. -/
theorem readOnly_targets (cwd : Text) (hcwd : cwd.IsDecoded) (config : Config)
    (readOnly : config.readOnly = true) :
    (∀ path : Text, Path.NamesFile path → path.IsEncodable →
      ∃ bytes escaped target, Text.encode (Path.normalised cwd path) = some bytes ∧
        Path.IsReference bytes escaped target ∧
        Path.target true (Path.parse cwd) path = .ok (target, true) ∧
        ∀ (e : Engine) (cs : List Command),
          ((Session.start path config (Path.parse cwd)).run e cs).2.ConnectsTo e target) ∧
    (∀ path : Text, Path.NamesFile path → ¬ path.IsEncodable →
      ∀ (e : Engine) (cs : List Command),
        ((Session.start path config (Path.parse cwd)).run e cs).2.NeverConnects e) ∧
    (∀ p q : Text, Path.NamesFile p → Path.NamesFile q → p.IsEncodable → q.IsEncodable →
      (Path.target true (Path.parse cwd) p = Path.target true (Path.parse cwd) q ↔
        Text.encode (Path.normalised cwd p) = Text.encode (Path.normalised cwd q)) ∧
      (p.IsDecoded → q.IsDecoded →
        (Path.target true (Path.parse cwd) p = Path.target true (Path.parse cwd) q ↔
          Path.normalised cwd p = Path.normalised cwd q))) ∧
    (∀ dir path : Text,
      Path.normalised dir (Path.normalised cwd path) = Path.normalised cwd path) := by
  refine ⟨?_, ?_, ?_, fun dir path => Path.normalised_normalised dir cwd path⟩
  · intro path hfile hpath
    -- There is one target, and every session of this path dials it.
    rcases Path.target_normalised cwd path hcwd.isEncodable hfile hpath with
      ⟨bytes, hbytes, htarget⟩
    refine ⟨bytes, _, _, hbytes, Path.readOnlyTarget_isReference bytes, htarget, ?_⟩
    intro e cs
    exact (start_dials path config _ e cs).connectsTo e _ (by rw [readOnly, htarget])
  · intro path hfile hpath e cs
    have htarget := Path.target_unencodable (Path.parse cwd) path hfile hpath
    exact (start_dials path config _ e cs).neverConnects e (by rw [readOnly, htarget])
  · intro p q pfile qfile hp hq
    exact ⟨Path.target_eq_iff cwd p q pfile qfile hcwd.isEncodable hp hq,
      Path.target_eq_iff_of_isDecoded cwd p q pfile qfile hcwd⟩

/-- A path that leaves the root, and tries to bring its own query and
    fragment. -/
def craftyPath : Text := Text.ofString "../../..//./a?mode=rwc#%2e"

/-- It is opened by a reference in which all of this is written by number. -/
theorem readOnly_targets_crafty :
    (Text.ofString "/srv").IsDecoded ∧
      (⟨Config.standardTimeout, true, []⟩ : Config).readOnly = true ∧
      (Path.NamesFile craftyPath ∧ craftyPath.IsEncodable) ∧
      ∃ bytes escaped target,
        Text.encode (Path.normalised (Text.ofString "/srv") craftyPath) = some bytes ∧
        Path.IsReference bytes escaped target ∧
        target = Text.ofString "file:///a%3Fmode%3Drwc%23%252e?mode=ro" := by
  have hcwd : (Text.ofString "/srv").IsDecoded := Text.ofChars_isDecoded "/srv".toList
  rcases (Path.names_faultless_iff craftyPath).mp rfl with ⟨hencodable, hnul⟩
  have hfile : Path.NamesFile craftyPath := ⟨by decide, hnul⟩
  refine ⟨hcwd, rfl, ⟨hfile, hencodable⟩, ?_⟩
  rcases (readOnly_targets (Text.ofString "/srv") hcwd ⟨Config.standardTimeout, true, []⟩ rfl).1
    craftyPath hfile hencodable with ⟨bytes, escaped, target, hbytes, href, htarget, -⟩
  refine ⟨bytes, escaped, target, hbytes, href, ?_⟩
  have hplain : Path.target true (Path.parse (Text.ofString "/srv")) craftyPath =
      .ok (Text.ofString "file:///a%3Fmode%3Drwc%23%252e?mode=ro", true) := by
    rfl
  rw [hplain, Except.ok.injEq, Prod.mk.injEq] at htarget
  exact htarget.1.symm

/-- One character of two bytes, and two strays for the same two bytes. Their
    normalised paths differ, but a database that is opened for reading only is
    connected to one file for both of them. -/
theorem readOnly_targets_shared :
    (Path.NamesFile [0xE9] ∧ Text.IsEncodable [0xE9]) ∧
      (Path.NamesFile [0xDCC3, 0xDCA9] ∧ Text.IsEncodable [0xDCC3, 0xDCA9]) ∧
      Path.normalised (Text.ofString "/srv") [0xE9] ≠
        Path.normalised (Text.ofString "/srv") [0xDCC3, 0xDCA9] ∧
      Path.target true (Path.parse (Text.ofString "/srv")) [0xE9] =
        .ok (Text.ofString "file:///srv/%C3%A9?mode=ro", true) ∧
      Path.target true (Path.parse (Text.ofString "/srv")) [0xDCC3, 0xDCA9] =
        .ok (Text.ofString "file:///srv/%C3%A9?mode=ro", true) := by
  have hone := (Path.names_faultless_iff [0xE9]).mp rfl
  have htwo := (Path.names_faultless_iff [0xDCC3, 0xDCA9]).mp rfl
  exact ⟨⟨⟨by decide, hone.2⟩, hone.1⟩, ⟨⟨by decide, htwo.2⟩, htwo.1⟩, by decide, rfl, rfl⟩

end Session

end RowScope
