import RowScope.Text.Quoted

/-!
# SQL

What a statement executes. That is a text, except that a caller may have nothing
to hand over where a text is expected. A statement can be made from nothing as
well, and it fails only when an engine is asked to execute it, since no engine
knows such a statement.

## Main definitions

* `Sql`: What a statement executes.
* `Sql.shown`: SQL as messages show it.
-/

namespace RowScope

/-- What a statement executes. -/
inductive Sql
  | text (t : Text)
  /-- Nothing, where a text is expected. -/
  | missing
deriving DecidableEq, Repr

namespace Sql

/-- SQL as messages show it: a text is quoted, and what is missing shows as an
empty list. -/
def shown : Sql → Text
  | text t => Text.quoted t
  | missing => Text.ofString "[]"

/-- The SQL that is given, if any. -/
def ofText? : Option Text → Sql
  | some t => text t
  | none => missing

end Sql

end RowScope
