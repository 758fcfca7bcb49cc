import RowScope.Cell.Projection
import RowScope.Config.Moment
import RowScope.Number.Literal
import RowScope.Number.Shortest
import RowScope.Text.Quoted

/-!
# Settings

The values that a configuration can give to a name. A setting is a single value,
a list of settings, or a table that gives settings to further names.

A setting goes into an SQL statement as text. By itself a text stands for itself
there; inside a list or a table it is quoted, so that the structure stays
visible.

## Main definitions

* `Setting`: A value of a configuration.
* `Setting.shown`: A setting inside a list or a table.
* `Setting.plain`: A setting by itself.
* `Setting.isTrue`: Whether a setting counts as true.
* `Setting.number`: A setting as a real.
* `Setting.put`: A table with one more entry.
-/

namespace RowScope

/-- A value of a configuration. -/
inductive Setting
  | null
  | truth (b : Bool)
  | integer (n : Int)
  | real (x : Binary64)
  | text (t : Text)
  | bytes (b : Bytes)
  /-- Bytes that can be changed. -/
  | buffer (b : Bytes)
  | moment (m : Moment)
  | list (values : List Setting)
  /-- A value that no file holds, by its writing and whether it counts as
  true. -/
  | foreign (writing : String) (counts : Bool)
  | table (entries : List (Text × Setting))

/-- Entries of a table, in the order in which their names were first given. -/
abbrev Entries := List (Text × Setting)

/-- Why a setting cannot be used. -/
inductive SettingFault
  /-- The number a text should write is none. -/
  | malformedNumber
  /-- A value of this kind is no number. -/
  | notNumber
  /-- An integer lies beyond the doubles. -/
  | beyondDoubles
  /-- An integer has more digits than are written at once. -/
  | tooManyDigits
deriving DecidableEq, Repr

namespace Setting

mutual

/-- A setting inside a list or a table. -/
def shown : Setting → Except SettingFault Text
  | null => .ok (Text.ofString "None")
  | truth b => .ok (Text.ofString (if b then "True" else "False"))
  | integer n =>
    match integerText n with
    | .ok t => .ok t
    | .error _ => .error .tooManyDigits
  | real x => .ok x.shortText
  | text t => .ok (Text.quoted t)
  | bytes b => .ok (Text.quotedBytes b)
  | buffer b =>
    .ok (Text.ofString "bytearray(" ++ Text.quotedBuffer b ++ Text.ofString ")")
  | moment m => .ok m.detailed
  | list values => do
    let ts ← shownEach values
    return Text.ofString "[" ++ Text.joined (Text.ofString ", ") ts ++ Text.ofString "]"
  | foreign writing _ => .ok (Text.ofString writing)
  | table entries => do
    let ts ← shownEntries entries
    return Text.ofString "\x7b" ++ Text.joined (Text.ofString ", ") ts ++ Text.ofString "\x7d"

/-- The settings of a list. -/
def shownEach : List Setting → Except SettingFault (List Text)
  | [] => .ok []
  | s :: rest => do return (← shown s) :: (← shownEach rest)

/-- The entries of a table. -/
def shownEntries : List (Text × Setting) → Except SettingFault (List Text)
  | [] => .ok []
  | (name, s) :: rest => do
    let t ← shown s
    return (Text.quoted name ++ Text.ofString ": " ++ t) :: (← shownEntries rest)

end

/-- A setting by itself: a text is itself, and a moment takes its plain form. -/
def plain : Setting → Except SettingFault Text
  | text t => .ok t
  | moment m => .ok m.plain
  | s => s.shown

/-- Zero, false, nothing and whatever is empty do not count as true. What is not
a number does. -/
def isTrue : Setting → Bool
  | null => false
  | truth b => b
  | integer n => n != 0
  | real x => !x.isZero
  | text t => !t.isEmpty
  | bytes b => !b.isEmpty
  | buffer b => !b.isEmpty
  | moment _ => true
  | list values => !values.isEmpty
  | foreign _ counts => counts
  | table entries => !entries.isEmpty

/-- A setting as a real: a truth value is one or zero, and a text must write a
number. -/
def number : Setting → Except SettingFault Binary64
  | truth b => .ok (Binary64.ofInt (if b then 1 else 0))
  | integer n =>
    match doubleOfInt n with
    | .ok x => .ok x
    | .error _ => .error .beyondDoubles
  | real x => .ok x
  | text t =>
    match Literal.real? t with
    | some x => .ok x
    | none => .error .malformedNumber
  | _ => .error .notNumber

/-- Entries with one more: a name that is there already keeps its place and
changes its value. -/
def put (name : Text) (s : Setting) : Entries → Entries
  | [] => [(name, s)]
  | (n, old) :: rest => if n = name then (n, s) :: rest else (n, old) :: put name s rest

/-- The setting of a name. -/
def get? (name : Text) (entries : Entries) : Option Setting :=
  (entries.find? (·.1 == name)).map (·.2)

end Setting

end RowScope
