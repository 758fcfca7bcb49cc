import RowScope.Error.Basic

/-!
# Kinds of Errors

How errors are sorted. Every error has a kind, and belongs to further, wider
kinds as well, up to the kind of all errors there are; a handler for any of them
catches the error. A violation about an index or a name is also a failed
look-up, as it would be in a list or a table.

## Main definitions

* `ErrorKind`: The kinds.
* `AccessError.kind`: The kind of an error.
* `ErrorKind.wider`: The kinds that an error of a kind belongs to besides, the
  closest first.
-/

namespace RowScope

/-- The kinds of errors: those of the library, and the general ones that they
belong to. -/
inductive ErrorKind
  | failure
  | violation
  | noRow
  | columnIndex
  | columnName
  | engine
  | misuse
  | notOpen
  /-- A look-up by position that failed. -/
  | index
  /-- A look-up by name that failed. -/
  | key
  /-- A look-up that failed. -/
  | lookup
  /-- Any error that a program is meant to handle. -/
  | ordinary
  /-- Any error at all. -/
  | any
deriving DecidableEq, Repr

namespace ErrorKind

/-- The kinds that an error of a kind belongs to besides its own, the closest
first. -/
def wider : ErrorKind → List ErrorKind
  | failure => [ordinary, any]
  | violation => [failure, ordinary, any]
  | noRow => [violation, failure, ordinary, any]
  | columnIndex => [violation, failure, index, lookup, ordinary, any]
  | columnName => [violation, failure, key, lookup, ordinary, any]
  | engine => [failure, ordinary, any]
  | misuse => [engine, failure, ordinary, any]
  | notOpen => [failure, ordinary, any]
  | index => [lookup, ordinary, any]
  | key => [lookup, ordinary, any]
  | lookup => [ordinary, any]
  | ordinary => [any]
  | any => []

end ErrorKind

namespace AccessError

/-- The kind of an error. -/
def kind : AccessError → ErrorKind
  | failure _ => .failure
  | violation _ _ => .violation
  | noRow _ => .noRow
  | columnIndex _ _ => .columnIndex
  | columnName _ => .columnName
  | engine _ => .engine
  | misuse _ => .misuse
  | notOpen _ => .notOpen

end AccessError

end RowScope
