import RowScope.Toml.Moment
import RowScope.Toml.Number
import RowScope.Toml.Quoted

/-!
# Keys and Values

A key is a path of names with dots between them; names may be quoted. A value is
a string, a number, a truth value, a moment, a list in brackets or a table in
braces. A list may run over several lines and end in a comma, while a table
stands on one line and may not.

Tables in braces are finished where they are written. A key in one may go
through a table that an earlier key of it has opened, but not through a value
that is a list or a table by itself.

Readers of values nest, and so carry fuel; the length of the input is always
enough.

## Main definitions

* `key?`: A key.
* `inside?`: A change somewhere in nested tables.
* `value?`, `listRest?`, `tableRest?`: A value, and the parts of lists and
  tables.
-/

namespace RowScope

namespace Toml

/-- A path of names. -/
abbrev KeyPath := List Text

/-- The characters of a name without quotes. -/
def isBare (c : Char) : Bool :=
  c.isAlphanum || c == '-' || c == '_'

/-- A name. -/
def name? (cs : Chars) : Option (Text × Chars) :=
  match cs with
  | '"' :: rest => (basic? rest).map fun p => (Text.ofChars p.1, p.2)
  | '\'' :: rest => (literal? rest).map fun p => (Text.ofChars p.1, p.2)
  | cs =>
    match cs.takeWhile isBare with
    | [] => none
    | bare => some (Text.ofChars bare, cs.dropWhile isBare)

/-- The further names of a key, each behind a dot. -/
def keyRest? : Nat → Chars → Option (KeyPath × Chars)
  | 0, _ => none
  | fuel + 1, cs =>
    match skipBlanks cs with
    | '.' :: rest => do
      let (name, rest) ← name? (skipBlanks rest)
      let (names, rest) ← keyRest? fuel rest
      return (name :: names, rest)
    | rest => some ([], rest)

/-- A key. -/
def key? (cs : Chars) : Option (KeyPath × Chars) := do
  let (name, rest) ← name? cs
  let (names, rest) ← keyRest? (cs.length + 1) rest
  return (name :: names, rest)

/-- Changes the table at the end of a path, making the tables on the way that
are missing. A list of tables stands for its last one if `throughLists` is
set. -/
def inside? (throughLists : Bool) (change : Entries → Option Entries) :
    KeyPath → Entries → Option Entries
  | [], es => change es
  | name :: rest, es =>
    match Setting.get? name es with
    | none => (inside? throughLists change rest []).map fun t => Setting.put name (.table t) es
    | some (.table t) =>
      (inside? throughLists change rest t).map fun t => Setting.put name (.table t) es
    | some (.list vs) =>
      match throughLists, vs.getLast? with
      | true, some (.table t) =>
        (inside? throughLists change rest t).map fun t =>
          Setting.put name (.list (vs.dropLast ++ [.table t])) es
      | _, _ => none
    | some _ => none

/-- Adds an entry whose name must be new. -/
def addNew? (name : Text) (s : Setting) (es : Entries) : Option Entries :=
  if (Setting.get? name es).isSome then none else some (Setting.put name s es)

/-- Adds an entry at the end of a path. -/
def addAt? (throughLists : Bool) (key : KeyPath) (place : KeyPath) (s : Setting) (es : Entries) :
    Option Entries :=
  match key.getLast? with
  | none => none
  | some name => inside? throughLists (addNew? name s) place es

/-- Lists and tables are finished where they are written. -/
def isFinished : Setting → Bool
  | .list _ => true
  | .table _ => true
  | _ => false

/-- A path leads through one of some paths, or to it. -/
def leadsThrough (key : KeyPath) (paths : List KeyPath) : Bool :=
  paths.any (·.isPrefixOf key)

/-- What was read, or that the file is malformed. -/
def orMalformed {α : Type} : Option α → Except Fault α
  | some a => .ok a
  | none => .error .malformed

mutual

/-- A value. -/
def value? (fuel : Nat) (cs : Chars) : Except Fault (Setting × Chars) :=
  match fuel with
  | 0 => .error .malformed
  | fuel + 1 =>
    match cs with
    | [] => .error .malformed
    | c :: rest =>
      if c == '"' || c == '\'' then do
        let (s, rest) ← orMalformed (string? cs)
        return (.text (Text.ofChars s), rest)
      else if c == '[' then listStart? fuel rest
      else if c == '\x7b' then tableStart? fuel rest
      else
        match after? ['t', 'r', 'u', 'e'] cs, after? ['f', 'a', 'l', 's', 'e'] cs with
        | some rest, _ => .ok (.truth true, rest)
        | _, some rest => .ok (.truth false, rest)
        | none, none =>
          match moment? cs with
          | some found => do
            let (m, rest) ← orMalformed found
            return (.moment m, rest)
          | none => do
            let (s, rest) ← orMalformed (number? cs)
            return (← s, rest)

/-- A list behind its opening bracket. -/
def listStart? (fuel : Nat) (cs : Chars) : Except Fault (Setting × Chars) :=
  match fuel with
  | 0 => .error .malformed
  | fuel + 1 => do
    let cs ← orMalformed (skipLines? cs)
    match after? [']'] cs with
    | some rest => return (.list [], rest)
    | none =>
      let (values, rest) ← listRest? fuel cs
      return (.list values, rest)

/-- The values of a list and its closing bracket. -/
def listRest? (fuel : Nat) (cs : Chars) : Except Fault (List Setting × Chars) :=
  match fuel with
  | 0 => .error .malformed
  | fuel + 1 => do
    let (value, cs) ← value? fuel cs
    let cs ← orMalformed (skipLines? cs)
    match cs with
    | ']' :: rest => return ([value], rest)
    | ',' :: rest =>
      let cs ← orMalformed (skipLines? rest)
      match after? [']'] cs with
      | some rest => return ([value], rest)
      | none =>
        let (values, rest) ← listRest? fuel cs
        return (value :: values, rest)
    | _ => throw .malformed

/-- A table behind its opening brace. -/
def tableStart? (fuel : Nat) (cs : Chars) : Except Fault (Setting × Chars) :=
  match fuel with
  | 0 => .error .malformed
  | fuel + 1 => do
    let cs := skipBlanks cs
    match after? ['\x7d'] cs with
    | some rest => return (.table [], rest)
    | none =>
      let (entries, rest) ← tableRest? fuel [] [] cs
      return (.table entries, rest)

/-- The entries of a table and its closing brace; `finished` are the keys of the
entries before that are lists or tables by themselves. -/
def tableRest? (fuel : Nat) (finished : List KeyPath) (entries : Entries) (cs : Chars) :
    Except Fault (Entries × Chars) :=
  match fuel with
  | 0 => .error .malformed
  | fuel + 1 => do
    let (key, value, cs) ← pair? fuel cs
    if leadsThrough key finished then throw .malformed
    let entries ← orMalformed (addAt? false key key.dropLast value entries)
    match skipBlanks cs with
    | '\x7d' :: rest => return (entries, rest)
    | ',' :: rest =>
      let finished := if isFinished value then key :: finished else finished
      tableRest? fuel finished entries (skipBlanks rest)
    | _ => throw .malformed

/-- A key, an equals sign and a value. -/
def pair? (fuel : Nat) (cs : Chars) : Except Fault (KeyPath × Setting × Chars) :=
  match fuel with
  | 0 => .error .malformed
  | fuel + 1 => do
    let (key, cs) ← orMalformed (key? cs)
    let cs ← orMalformed (after? ['='] cs)
    let (value, cs) ← value? fuel (skipBlanks cs)
    return (key, value, cs)

end

end Toml

end RowScope
