import RowScope.Engine.Basic

/-!
# Engines That Follow a Plan

An engine that answers from a list of prepared answers. A plan may be limited to
certain parameters and to a number of uses; the first one that fits is taken.
Statements and pragmas draw on the same plans. How often a plan was used is read
off the earlier requests, so that a planned engine needs no state either.

## Main definitions

* `Plan`: A prepared answer to a statement.
* `ScriptPlan`: A prepared answer to a script.
* `Repertoire`: All prepared answers of an engine.
* `Repertoire.choose`: The plan that answers a statement.
* `Repertoire.engine`: The engine.
-/

namespace RowScope

/-- A prepared answer to a statement. -/
structure Plan where
  sql : Text
  /-- Only for these parameters, if given. -/
  params : Option Params
  /-- Only for so many uses, if given. -/
  times : Option Nat
  /-- The failure or the answer. -/
  outcome : Except EngineError Answer

/-- A prepared answer to a script; the changes are made even if it fails. -/
structure ScriptPlan where
  sql : Text
  changes : Int
  failure : Option EngineError

/-- All prepared answers. -/
structure Repertoire where
  connectFailure : Option EngineError
  plans : List Plan
  scripts : List ScriptPlan

namespace Repertoire

/-- The failure of SQL for which nothing is prepared. -/
def unknownSql : EngineError :=
  ⟨.operational, Text.ofString "unknown SQL", some 1, some (Text.ofString "SQLITE_ERROR")⟩

/-- A plan fits some SQL and parameters, after so many uses. -/
def fits (sql : Sql) (params : Params) (plan : Plan) (uses : Nat) : Bool :=
  Sql.text plan.sql == sql && plan.params.all (· == params) && plan.times.all (uses < ·)

/-- The place of the first plan that fits, given how often each was used. -/
def choose (r : Repertoire) (uses : List Nat) (sql : Sql) (params : Params) : Option Nat :=
  (r.plans.zip uses).findIdx? fun p => fits sql params p.1 p.2

/-- How often each plan has been used, one more request considered. -/
def count (r : Repertoire) (uses : List Nat) : Request → List Nat
  | .execute sql params =>
    match r.choose uses sql params with
    | some i => uses.modify i (· + 1)
    | none => uses
  | .pragma sql =>
    match r.choose uses (.text sql) Params.empty with
    | some i => uses.modify i (· + 1)
    | none => uses
  | .connect _ _ => uses
  | .script _ => uses

/-- How often each plan was used by earlier requests. -/
def uses (r : Repertoire) (past : List Request) : List Nat :=
  past.foldl r.count (r.plans.map fun _ => 0)

/-- The plan that answers a statement after some earlier requests. -/
def planFor (r : Repertoire) (past : List Request) (sql : Sql) (params : Params) : Option Plan :=
  (r.choose (r.uses past) sql params).bind (r.plans[·]?)

/-- The engine that answers from a repertoire. Statements and scripts need a
prepared answer, while a pragma without one succeeds. -/
def engine (r : Repertoire) : Engine where
  connect _ _ := r.connectFailure
  pragma past sql :=
    match r.planFor past (.text sql) Params.empty with
    | some ⟨_, _, _, .error e⟩ => some e
    | _ => none
  script _ sql :=
    match r.scripts.find? (·.sql == sql) with
    | some plan => (plan.changes, plan.failure)
    | none => (0, some unknownSql)
  execute past sql params :=
    match r.planFor past sql params with
    | some plan => plan.outcome
    | none => .error unknownSql

end Repertoire

end RowScope
