import RowScope.CommandLine.Run

/-!
# The Program

The outermost layer: it hands the command line and the files to a run and writes
down what comes of it. Output goes to standard output as bytes, so that a text
which is not valid comes out as it went in; diagnostics go to standard error,
one a line.

## Main definitions

* `Engine.unreachable`: The engine where none is installed.
* `main`: The program.
-/

namespace RowScope

/-- The engine where none is installed: no database can be opened. -/
def Engine.unreachable : Engine where
  connect _ _ := some ⟨.operational, Text.ofString "unable to open database file", some 14,
    some (Text.ofString "SQLITE_CANTOPEN")⟩
  pragma _ _ := none
  script _ _ := (0, none)
  execute _ _ _ := .ok ⟨none, [], -1, 0⟩

namespace Program

/-- What is found at the place of a file. Whatever is there but is no file
counts as a directory. -/
def findFile (path : String) : IO ConfigFile := do
  try
    return .content (← IO.FS.readBinFile path).toList
  catch
    | .noFileOrDirectory _ _ _ => return .missing
    | _ => return .directory

/-- The surroundings of a run that looks at one file only. -/
def surroundings (path : Option Text) : IO Surroundings := do
  let file ← match path.bind Text.toString? with
    | some name => findFile name
    | none => pure .missing
  let here := Path.parse (Text.ofString (toString (← IO.currentDir)))
  return ⟨fun _ => file, bundledFile, Text.ofString "database.toml", here⟩

/-- The file that a command line asks for. -/
def wantedFile (argv : List Text) : Option Text :=
  match Arguments.parse argv with
  | .ok a => a.config.join
  | .error _ => none

/-- Writes down what came of a run. -/
def report (run : Run) : IO UInt32 := do
  let out ← IO.getStdout
  let err ← IO.getStderr
  out.write ⟨((Text.encode run.output).getD []).toArray⟩
  out.flush
  for d in run.log do
    err.write ⟨((Text.encode (d.line ++ Text.ofString "\n")).getD []).toArray⟩
  err.write ⟨((Text.encode run.ending.complaint).getD []).toArray⟩
  return run.ending.code.toUInt32

end Program

end RowScope

/-- Prints the rows of one statement. -/
def main (args : List String) : IO UInt32 := do
  let argv := args.map RowScope.Text.ofString
  let around ← RowScope.Program.surroundings (RowScope.Program.wantedFile argv)
  RowScope.Program.report (RowScope.CommandLine.run around RowScope.Engine.unreachable argv)
