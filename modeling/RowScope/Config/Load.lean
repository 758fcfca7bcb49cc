import RowScope.Config.Basic
import RowScope.Toml.Document

/-!
# Loading a Configuration

A configuration file has a table for the connection and one for pragmas; both
may be missing, and whatever else the file holds is ignored. Its settings are
taken generously: a timeout may be any number or a text that writes one,
anything that counts as true asks for reading only, and pragmas may also be
given as a list of pairs.

What is wrong is found in a fixed order: first the file as such, then the table
for the connection, the timeout, the shape of the pragmas, and last their names.

## Main definitions

* `ConfigFile`: What is found at the place of a configuration file.
* `ConfigFault`: Why there is no configuration.
* `Setting.asPragmas`: Settings as names and values.
* `Config.ofEntries`: The configuration of a file's entries.
* `Config.load`: The configuration of a file.
* `bundledText`, `bundledFile`: The file that comes with the program.
-/

namespace RowScope

/-- What is found at the place of a configuration file. -/
inductive ConfigFile
  | missing
  | directory
  /-- The way to the file leads through something that is no directory. -/
  | blocked
  /-- The path has a name in it that no file can have. -/
  | nameTooLong
  /-- The path has a NUL in it, so there is no place. -/
  | nowhere
  | content (bytes : Bytes)

/-- Why there is no configuration. -/
inductive ConfigFault
  /-- There is no such file. -/
  | missing
  /-- The file is a directory. -/
  | directory
  /-- The way to the file leads through something that is no directory. -/
  | blocked
  /-- The path has a name in it that no file can have. -/
  | nameTooLong
  /-- The path has a NUL in it. -/
  | nulInPath
  /-- The bytes are no text. -/
  | notText
  /-- The text is not written by the rules. -/
  | malformed
  /-- The connection is described by something else than a table. -/
  | connectionNotTable
  /-- A setting cannot be used. -/
  | setting (f : SettingFault)
  /-- The pragmas are neither a table nor a list. -/
  | pragmasNotTable
  /-- An element of the list of pragmas is no pair. -/
  | notPair
  /-- The name of a pragma is no text. -/
  | nameNotText
  /-- The name of a pragma is not accepted. -/
  | pragmaName (name : Text)

namespace ConfigFault

/-- The words of a fault, where the library chooses them. -/
def message? : ConfigFault → Option Text
  | pragmaName name => some (Config.nameMessage name)
  | _ => none

end ConfigFault

/-- A name that need not be a text. -/
abbrev LooseName := Option Text

namespace Setting

/-- A setting as the name of a pragma; lists and tables cannot be names. -/
def asName : Setting → Except ConfigFault LooseName
  | text t => .ok (some t)
  | list _ => .error .pragmasNotTable
  | table _ => .error .pragmasNotTable
  | _ => .ok none

/-- The two parts of a pair: a list of two, a text of two letters, or a table of
two names. -/
def asPair : Setting → Except ConfigFault (Setting × Setting)
  | list [a, b] => .ok (a, b)
  | list _ => .error .notPair
  | text [a, b] => .ok (text [a], text [b])
  | text _ => .error .notPair
  | table [a, b] => .ok (text a.1, text b.1)
  | table _ => .error .notPair
  | _ => .error .pragmasNotTable

/-- Pragmas by name, of which the last value counts for each name. -/
def putLoose (name : LooseName) (s : Setting) :
    List (LooseName × Setting) → List (LooseName × Setting)
  | [] => [(name, s)]
  | (n, old) :: rest => if n = name then (n, s) :: rest else (n, old) :: putLoose name s rest

/-- Adds pairs to pragmas, in order. -/
def addPairs (found : List (LooseName × Setting)) :
    List Setting → Except ConfigFault (List (LooseName × Setting))
  | [] => .ok found
  | s :: rest => do
    let (a, b) ← s.asPair
    addPairs (putLoose (← a.asName) b found) rest

/-- Settings as names and values. A text is a list of its letters, so only the
empty one will do. -/
def asPragmas : Setting → Except ConfigFault (List (LooseName × Setting))
  | table entries => .ok (entries.map fun p => (some p.1, p.2))
  | list values => addPairs [] values
  | text [] => .ok []
  | text _ => .error .notPair
  | _ => .error .pragmasNotTable

end Setting

/-- Names that are texts and accepted, or the first one that is not. -/
def checkNames : List (LooseName × Setting) → Except ConfigFault Entries
  | [] => .ok []
  | (none, _) :: _ => .error .nameNotText
  | (some name, s) :: rest =>
    if isPragmaName name then (checkNames rest).map ((name, s) :: ·)
    else .error (.pragmaName name)

/-- A step that needs a usable setting. -/
def withSetting {α : Type} : Except SettingFault α → Except ConfigFault α
  | .ok a => .ok a
  | .error f => .error (.setting f)

namespace Config

/-- The configuration of a file's entries. -/
def ofEntries (entries : Entries) : Except ConfigFault Config := do
  let connection ← match Setting.get? (Text.ofString "connection") entries with
    | none => pure []
    | some (.table t) => pure t
    | some _ => throw .connectionNotTable
  let timeout ← match Setting.get? (Text.ofString "timeout") connection with
    | none => pure standardTimeout
    | some s => withSetting s.number
  let readOnly := (Setting.get? (Text.ofString "readonly") connection).any Setting.isTrue
  let pragmas ← match Setting.get? (Text.ofString "pragmas") entries with
    | none => pure []
    | some s => s.asPragmas
  return ⟨timeout, readOnly, ← checkNames pragmas⟩

/-- The configuration of a file. -/
def load : ConfigFile → Except ConfigFault Config
  | .missing => .error .missing
  | .directory => .error .directory
  | .blocked => .error .blocked
  | .nameTooLong => .error .nameTooLong
  | .nowhere => .error .nulInPath
  | .content bytes =>
    match Toml.parseBytes bytes with
    | none => .error .notText
    | some (.error .malformed) => .error .malformed
    | some (.error .tooManyDigits) => .error (.setting .tooManyDigits)
    | some (.ok entries) => ofEntries entries

end Config

/-- The file that comes with the program. -/
def bundledText : String :=
  "[connection]\n" ++
  "timeout = 5.0\n" ++
  "readonly = false\n" ++
  "\n" ++
  "[pragmas]\n" ++
  "foreign_keys = true\n" ++
  "journal_mode = \"WAL\"\n" ++
  "synchronous = \"NORMAL\"\n" ++
  "temp_store = \"MEMORY\"\n"

/-- The bundled file as it is found. -/
def bundledFile : ConfigFile := .content bundledText.toUTF8.toList

end RowScope
