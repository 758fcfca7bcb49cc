import RowScope.Error.Kind
import RowScope.Fault

/-!
# Errors Made by Hand

An error can also be made from its kind and a list of arguments. How many
arguments there may be depends on the kind, but not what they are: they go into
the words of the error as they read, and stay with the error as they were given.
Where an error has words of its own to offer, an argument that does not count as
true is passed over for them.

The errors of the library are a special case, in which all data have their
proper type.

## Main definitions

* `Argument`: What an error can be made from.
* `MadeError`: An error with its data as they were given.
* `AccessError.made`: An error of the library as an error with data.
* `MadeError.make`: The error of a kind that some arguments make.
-/

namespace RowScope

/-- What an error can be made from: whatever a configuration can hold as
well. -/
abbrev Argument := Setting

/-- The data of an error besides its words. -/
inductive ErrorData
  | none
  /-- An index and the number of columns that it lies outside of. -/
  | place (index count : Argument)
  /-- The name of a column. -/
  | name (name : Argument)
  /-- A result code and its symbolic name. -/
  | codes (code codeName : Argument)

/-- An error with its data as they were given. -/
structure MadeError where
  kind : ErrorKind
  message : Text
  /-- The precondition that was not met, if the error is a violation. -/
  precondition : Option Argument
  data : ErrorData

namespace AccessError

/-- A report's codes as data; a code that is not there is null. -/
def codesOf (r : Report) : ErrorData :=
  .codes ((r.code.map Setting.integer).getD .null) ((r.codeName.map Setting.text).getD .null)

/-- The data of an error of the library. -/
def data : AccessError → ErrorData
  | columnIndex index count => .place (.integer index) (.integer count)
  | columnName name => .name (.text name)
  | engine report => codesOf report
  | misuse report => codesOf report
  | _ => .none

/-- An error of the library as an error with data. -/
def made (e : AccessError) : MadeError :=
  ⟨e.kind, e.message, e.precondition?.map Setting.text, e.data⟩

end AccessError

namespace MadeError

/-- The message of an error that takes any number of arguments: none is no
message, one speaks for itself, and several are listed. -/
def gathered : List Argument → Except SettingFault Text
  | [] => .ok []
  | [a] => a.plain
  | as => do
    let ts ← Setting.shownEach as
    return Text.ofString "(" ++ Text.joined (Text.ofString ", ") ts ++ Text.ofString ")"

/-- The first argument, unless it does not count as true. -/
def preferred (a other : Argument) : Argument :=
  if a.isTrue then a else other

/-- An error with words that have to be found first. -/
def worded (kind : ErrorKind) (precondition : Option Argument) (data : ErrorData) :
    Except SettingFault Text → Except Fault MadeError
  | .ok message => .ok ⟨kind, message, precondition, data⟩
  | .error f => .error (.setting f)

/-- A violation of a precondition. -/
def violation (kind : ErrorKind) (precondition : Argument) (data : ErrorData)
    (message : Except SettingFault Text) : Except Fault MadeError :=
  worded kind (some precondition) data message

/-- An error from a message, a code and the name of the code, the last two of
which may be left out. -/
def reported (kind : ErrorKind) : List Argument → Except Fault MadeError
  | [m] => worded kind none (.codes .null .null) m.plain
  | [m, code] => worded kind none (.codes code .null) m.plain
  | [m, code, codeName] => worded kind none (.codes code codeName) m.plain
  | _ => .error .wrongArguments

/-- The words about an index and a number of columns, whatever these are. -/
def placeWords (index count : Argument) : Except SettingFault Text := do
  let i ← index.plain
  let n ← count.plain
  return AccessError.indexMessage i n

/-- The words about a name, whatever it is. -/
def nameWords (name : Argument) : Except SettingFault Text :=
  name.shown.map AccessError.nameMessage

/-- The error of a kind that some arguments make. It is a fault if their number
does not fit, and if the kind is not one of the library. -/
def make (kind : ErrorKind) (args : List Argument) : Except Fault MadeError :=
  let missing := AccessError.noCurrentRow.message
  match kind, args with
  | .failure, as => worded .failure none .none (gathered as)
  | .notOpen, as => worded .notOpen none .none (gathered as)
  | .violation, [p] => violation .violation p .none p.plain
  | .violation, [p, m] => violation .violation p .none (preferred m p).plain
  | .noRow, [] => .ok AccessError.noCurrentRow.made
  | .noRow, [m] =>
    violation .noRow (.text AccessError.rowAvailable) .none (preferred m (.text missing)).plain
  | .columnIndex, [i, n] =>
    violation .columnIndex (.text AccessError.indexInRange) (.place i n) (placeWords i n)
  | .columnName, [name] =>
    violation .columnName (.text AccessError.knownColumnName) (.name name) (nameWords name)
  | .engine, as => reported .engine as
  | .misuse, as => reported .misuse as
  | _, _ => .error .wrongArguments

end MadeError

end RowScope
