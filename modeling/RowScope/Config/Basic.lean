import RowScope.Config.Setting

/-!
# Connection Settings

What a connection is opened with: how long it waits for a lock, whether it may
write, and the pragmas that are run right after it has been opened. The name of
a pragma is spliced into an SQL statement and therefore checked when a
configuration is made; its value is not.

## Main definitions

* `Config`: A checked configuration.
* `isPragmaName`: The names that are accepted.
* `Config.make`: A configuration from its parts.
* `Config.pragmaStatements`: The SQL of all pragmas, in order.
* `Config.standard`: No pragmas, and five seconds of waiting.
-/

namespace RowScope

/-- What a connection is opened with. -/
structure Config where
  /-- Seconds to wait for a lock. -/
  timeout : Binary64
  /-- The connection must not write. -/
  readOnly : Bool
  /-- Pragmas and their values, in order. -/
  pragmas : Entries

/-- A letter or an underscore. -/
def startsName (c : CodePoint) : Bool :=
  c.isLetter || c.val == 95

/-- A letter, an underscore or a digit. -/
def continuesName (c : CodePoint) : Bool :=
  startsName c || c.isDigit

/-- The rest of a name, possibly with a line feed at its very end. -/
def isNameTail : Text → Bool
  | [] => true
  | c :: rest => (continuesName c && isNameTail rest) || (c.val == 10 && rest.isEmpty)

/-- A letter or underscore, then letters, underscores and digits; one line feed
may follow. -/
def isPragmaName : Text → Bool
  | [] => false
  | c :: rest => startsName c && isNameTail rest

namespace Config

/-- A configuration from its parts, or the first name that is not accepted. -/
def make (timeout : Binary64) (readOnly : Bool) (pragmas : Entries) : Except Text Config :=
  match pragmas.find? (fun p => !isPragmaName p.1) with
  | some p => .error p.1
  | none => .ok ⟨timeout, readOnly, pragmas⟩

/-- The message about a name that is not accepted. -/
def nameMessage (name : Text) : Text :=
  Text.ofString "Invalid pragma name: " ++ Text.quoted name

/-- The value of a pragma: truth values are switches, all else is shown
plainly. -/
def pragmaValue : Setting → Except SettingFault Text
  | .truth true => .ok (Text.ofString "ON")
  | .truth false => .ok (Text.ofString "OFF")
  | s => s.plain

/-- The SQL of one pragma. -/
def pragmaStatement (name : Text) (s : Setting) : Except SettingFault Text := do
  let value ← pragmaValue s
  return Text.ofString "PRAGMA " ++ name ++ Text.ofString " = " ++ value ++ Text.ofString ";"

/-- The SQL of all pragmas, in their order. -/
def pragmaStatements (c : Config) : Except SettingFault (List Text) :=
  c.pragmas.mapM fun p => pragmaStatement p.1 p.2

/-- Five seconds. -/
def standardTimeout : Binary64 := Binary64.ofInt 5

/-- The configuration that says nothing. -/
def standard : Config := ⟨standardTimeout, false, []⟩

end Config

end RowScope
