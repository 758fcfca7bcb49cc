import RowScope.Text.Codec
import RowScope.Toml.Value

/-!
# Configuration Files

A configuration file is read statement by statement. A header opens a table, or
one more table of a list of tables, and the entries that follow go into it. What
has been opened or written once must not be opened again: a table that has a
header gets no second one, a value that is a list or a table by itself takes no
further entries, and a table that was made by the dots of a key can be extended
by more keys in its own section only.

## Main definitions

* `Reader`: The entries so far, the table in use, and what is closed.
* `Reader.openTable?`, `Reader.openListed?`: The two kinds of headers.
* `Reader.assign?`: An entry.
* `parse`: The entries of a whole file.
* `parseBytes`: The entries of a file by its bytes.
-/

namespace RowScope

namespace Toml

/-- What has been read of a file. -/
structure Reader where
  entries : Entries
  /-- The table that entries go into. -/
  header : KeyPath
  /-- Tables that cannot be opened by a header any more. -/
  opened : List KeyPath
  /-- Values that take no further entries. -/
  finished : List KeyPath
  /-- Tables made by dots in this section, which are closed with the next
  header. -/
  dotted : List KeyPath

namespace Reader

/-- Nothing has been read yet. -/
def start : Reader := ⟨[], [], [], [], []⟩

/-- The reader when a header follows: the tables made by dots are closed. -/
def atHeader (r : Reader) : Reader :=
  { r with opened := r.dotted ++ r.opened, dotted := [] }

/-- Opens a table. -/
def openTable? (r : Reader) (key : KeyPath) : Option Reader :=
  if r.opened.contains key || leadsThrough key r.finished then none
  else do
    let entries ← inside? true some key r.entries
    return { r with entries := entries, header := key, opened := key :: r.opened }

/-- Adds an empty table to the list of tables of a name. -/
def addListed? (name : Text) (es : Entries) : Option Entries :=
  match Setting.get? name es with
  | none => some (Setting.put name (.list [.table []]) es)
  | some (.list vs) => some (Setting.put name (.list (vs ++ [.table []])) es)
  | some _ => none

/-- Opens one more table of a list of tables. Whatever was closed in the table
before is open in the new one. -/
def openListed? (r : Reader) (key : KeyPath) : Option Reader :=
  if leadsThrough key r.finished then none
  else do
    let name ← key.getLast?
    let entries ← inside? true (addListed? name) key.dropLast r.entries
    return { r with
      entries := entries
      header := key
      opened := key :: r.opened.filter fun p => !key.isPrefixOf p
      finished := r.finished.filter fun p => !key.isPrefixOf p }

/-- The paths that the dots of a key go through, from the table in use. -/
def passed (r : Reader) (key : KeyPath) : List KeyPath :=
  (List.range (key.length - 1)).map fun i => r.header ++ key.take (i + 1)

/-- Adds an entry to the table in use. -/
def assign? (r : Reader) (key : KeyPath) (s : Setting) : Option Reader :=
  let place := r.header ++ key.dropLast
  if (r.passed key).any r.opened.contains || leadsThrough place r.finished then none
  else do
    let entries ← addAt? true key place s r.entries
    return { r with
      entries := entries
      dotted := r.passed key ++ r.dotted
      finished := if isFinished s then (r.header ++ key) :: r.finished else r.finished }

end Reader

/-- A header, or an entry; a line without either is left as it is. -/
def statement? (fuel : Nat) (r : Reader) (cs : Chars) : Except Fault (Reader × Chars) :=
  match cs with
  | '[' :: '[' :: rest => do
    let (key, rest) ← orMalformed (key? (skipBlanks rest))
    let r ← orMalformed (r.atHeader.openListed? key)
    return (r, ← orMalformed (after? [']', ']'] rest))
  | '[' :: rest => do
    let (key, rest) ← orMalformed (key? (skipBlanks rest))
    let r ← orMalformed (r.atHeader.openTable? key)
    return (r, ← orMalformed (after? [']'] rest))
  | '#' :: rest => .ok (r, '#' :: rest)
  | cs => do
    let (key, value, rest) ← pair? fuel cs
    let r ← orMalformed (r.assign? key value)
    return (r, rest)

/-- The statements that are left, one to a line. -/
def statements (fuel : Nat) (r : Reader) (cs : Chars) : Except Fault Entries :=
  match fuel with
  | 0 => .error .malformed
  | fuel + 1 =>
    match skipBlanks cs with
    | [] => .ok r.entries
    | '\n' :: rest => statements fuel r rest
    | cs => do
      let (r, rest) ← statement? (4 * cs.length + 4) r cs
      match ← orMalformed (skipComment? (skipBlanks rest)) with
      | [] => return r.entries
      | '\n' :: rest => statements fuel r rest
      | _ => throw .malformed

/-- The characters with every carriage return that a line feed follows taken
out. -/
def unixLines : Chars → Chars
  | [] => []
  | '\x0d' :: '\n' :: rest => '\n' :: unixLines rest
  | c :: rest => c :: unixLines rest

/-- The entries of a file. -/
def parse (cs : Chars) : Except Fault Entries :=
  let cs := unixLines cs
  statements (cs.length + 1) Reader.start cs

/-- The entries of a file by its bytes; `none` if these are no text. -/
def parseBytes (bytes : Bytes) : Option (Except Fault Entries) := do
  let t ← Text.decodeStrict? bytes
  let cs ← Text.toChars? t
  return parse cs

end Toml

end RowScope
