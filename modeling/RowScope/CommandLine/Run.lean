import RowScope.CommandLine.Arguments
import RowScope.CommandLine.Printing
import RowScope.Config.Load

/-!
# Runs

A whole run of the program: it reads its command line, loads a configuration,
opens the database, prints the rows of one statement and closes the database
again. A failure of the library is reported and makes the run end with exit code
1; every other fault ends the run as it is.

The view that printing leaves behind is given up before the database is closed
if all went well. After a failure it is still part of what failed, and is given
up only when everything else is done; then the engine refuses to close the
cursor, which is reported like everything else.

## Main definitions

* `Surroundings`: What a run finds around it.
* `Surroundings.find`: What it finds at one place.
* `Ending`: How a run ends.
* `Run`: An ending with everything that can be observed.
* `Arguments.run`: The run that a command line asks for.
* `CommandLine.run`: The run of a command line.
-/

namespace RowScope

/-- What a run finds around it. -/
structure Surroundings where
  /-- What is found at the place of a file. -/
  files : Text → ConfigFile
  /-- The configuration that comes with the program. -/
  bundled : ConfigFile
  /-- The place of that configuration. -/
  bundledPath : Text
  /-- Where the program runs. -/
  here : Path

namespace Surroundings

/-- What is found at a place. A path with a NUL in it is the path of no place at
all. -/
def find (around : Surroundings) (path : Text) : ConfigFile :=
  if path.any (·.val == 0) then .nowhere else around.files path

end Surroundings

/-- How a run ends. -/
inductive Ending
  | exit (code : Nat)
  /-- There is no configuration. -/
  | unconfigured (f : ConfigFault)
  /-- Something failed that is no error of the library. -/
  | failed (f : Fault)

namespace Ending

/-- The exit code of an ending; a fault counts as a failure. -/
def code : Ending → Nat
  | exit code => code
  | unconfigured _ => 1
  | failed _ => 1

/-- What a user is told about an ending, apart from the log. -/
def complaint : Ending → Text
  | exit 2 => Exit.usageLine
  | exit _ => []
  | unconfigured f =>
    Text.ofString "The configuration cannot be used. " ++ f.message?.getD [] ++ Text.ofString "\n"
  | failed f =>
    Text.ofString "The rows cannot be printed. " ++ f.message?.getD [] ++ Text.ofString "\n"

end Ending

/-- An ending with everything that can be observed. -/
structure Run where
  ending : Ending
  output : Text
  log : List Diagnostic
  calls : List Call

namespace Run

/-- A run that ends before there is a session. -/
def early (ending : Ending) (output : Text) (log : List Diagnostic) : Run :=
  ⟨ending, output, log, []⟩

end Run

namespace Session

/-- The end of a run that failed. -/
def failedRun (f : Fault) (s : Session) : Ending × Session :=
  match f with
  | .access e => (.exit 1, s.noted (.queryFailed e.message))
  | f => (.failed f, s)

/-- Prints the rows that some SQL yields from a database that is opened for
it. -/
def printFromDatabase (e : Engine) (style : RowStyle) (sql : Sql) (s : Session) :
    Ending × Text × Session :=
  match s.openDatabase e with
  | (.error f, s) =>
    let (ending, s) := s.failedRun f
    (ending, [], s)
  | (.ok (), s) =>
    match s.printRows e style sql with
    | (.error f, p, s) =>
      let (ending, s) := s.closeDatabase.failedRun f
      (ending, p.output, s.releaseHeld p)
    | (.ok (), p, s) =>
      (.exit 0, p.output, (s.releaseHeld p).closeDatabase.noted (.printed p.rows))

end Session

namespace Arguments

/-- The place of the configuration, and what is found there. The configuration
that comes with the program serves if no place was given, or one that says
nothing. -/
def configFile (a : Arguments) (around : Surroundings) : Text × ConfigFile :=
  match a.config.join with
  | some path => (path, around.find path)
  | none => (around.bundledPath, around.bundled)

/-- How rows are to be printed. -/
def style (a : Arguments) : RowStyle := ⟨a.header, a.types⟩

/-- The run that a command line asks for. -/
def run (a : Arguments) (around : Surroundings) (e : Engine) : Run :=
  let (path, file) := a.configFile around
  let shown (log : List Diagnostic) := log.filter (Diagnostic.isShown a.verbose)
  match Config.load file with
  | .error f => Run.early (.unconfigured f) [] (shown [.loadingConfig path])
  | .ok config =>
    let s := (Session.start a.database config around.here).noted (.loadingConfig path)
    let (ending, output, s) := s.printFromDatabase e a.style a.sql
    ⟨ending, output, shown s.log, s.calls⟩

end Arguments

/-- The run of a command line. -/
def CommandLine.run (around : Surroundings) (e : Engine) (argv : List Text) : Run :=
  match Arguments.parse argv with
  | .error exit => Run.early (.exit exit.code) exit.output []
  | .ok a => a.run around e

end RowScope
