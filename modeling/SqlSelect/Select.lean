import SqlSelect.Query.Binding
import SqlSelect.Query.Prepared
import SqlSelect.Row

/-!
# Statements under construction

A `Select` is a statement as far as it is built: its query, the aliases in sight,
the first error met, the clause that was written last, and what its rows hold.
Once an error is recorded it stays, and the statement can no longer be prepared.
-/

namespace SqlSelect

/-- The clauses that hold a condition. -/
inductive Clause where
  | on
  | filter
  | having
deriving DecidableEq, Repr

/-- How far a statement has come, by the clause that was written last. -/
inductive Stage where
  /-- Inside the FROM tree, with no join left open. -/
  | joining
  /-- Behind a join that needs its condition. -/
  | awaitingOn
  | inOn
  | inProjection
  | inFilter
  | inGroupBy
  | inHaving
  | inOrderBy
  | inUnion
  /-- Only options can follow. -/
  | ended
deriving DecidableEq, Repr

namespace Stage

/-- Further sources may be joined, and the SELECT list may start. -/
def mayJoin : Stage → Bool
  | .joining | .inOn => true
  | _ => false

/-- WHERE may start. -/
def mayFilter (stage : Stage) : Bool :=
  stage.mayJoin || stage == .inProjection

/-- GROUP BY may start. -/
def mayGroup (stage : Stage) : Bool :=
  stage.mayFilter || stage == .inFilter

/-- ORDER BY may start, and the statement may be an operand of a union. -/
def mayOrder (stage : Stage) : Bool :=
  stage.mayGroup || stage == .inGroupBy || stage == .inHaving

/-- A union may follow. -/
def mayUnite (stage : Stage) : Bool :=
  stage.mayOrder || stage == .inUnion

/-- The statement is complete: it can be prepared, run and given options. -/
def isComplete : Stage → Bool
  | .awaitingOn => false
  | _ => true

/-- The clause whose condition may be extended. -/
def clause? : Stage → Option Clause
  | .inOn => some .on
  | .inFilter => some .filter
  | .inHaving => some .having
  | _ => none

end Stage

/-- A statement under construction. -/
structure Select where
  query : Query
  scope : Scope
  /-- The first error met. -/
  failure : Option QueryError
  stage : Stage
  shape : Shape

namespace Select

/-- A statement that reads `source`, at the own level of `scope`. -/
def start (scope : Scope) (source : Source) : Select :=
  { query := .ofSource source
    scope := scope.plus source.alias
    failure := none
    stage := .joining
    shape := [.record source.alias.table] }

/-- Go on unless an error is recorded. -/
def proceed (select : Select) : Except QueryError Unit :=
  match select.failure with
  | some error => .error error
  | none => .ok ()

/-- The finished query, or the recorded error. -/
def result (select : Select) : Except QueryError Query := do
  select.proceed
  return select.query

/-- Replace the query, or record why it could not be made. -/
def amend (select : Select) : Except QueryError Query → Select
  | .ok query => { select with query }
  | .error error => { select with failure := some error }

/-- The text of a statement and its arguments, or the first error. -/
def prepare (select : Select) : Except QueryError Prepared := do
  let query ← select.result
  query.prepare select.scope.database

/-- The text of a statement alone. -/
def text (select : Select) : Except QueryError String := do
  return (← select.prepare).text

/-- The arguments of a statement alone, in the order of their placeholders. -/
def arguments (select : Select) : Except QueryError (List Value) := do
  return (← select.prepare).arguments

/-- What a row of the statement decodes to. -/
def rowType (select : Select) : RowType :=
  select.shape.rowType

theorem result_eq_ok {select : Select} {query : Query} (finished : select.result = .ok query) :
    select.failure = none ∧ query = select.query := by
  simp only [result, except_bind_ok, except_pure_ok] at finished
  rcases finished with ⟨_, proceeds, rfl⟩
  cases failed : select.failure with
  | some _ => simp [proceed, failed] at proceeds
  | none => exact ⟨rfl, rfl⟩

end Select

/-- The statement that reads `source` from a database. -/
def Database.select (database : Database) (source : Source) : Select :=
  .start (.empty database) source

/-- The sub-query that reads `source`, and may refer to the aliases in `scope`. -/
def Scope.select (scope : Scope) (source : Source) : Select :=
  .start scope.nested source

namespace Source

/-- A table under an alias. -/
def ofTable (handle : Alias) : Source :=
  ⟨handle, .table⟩

/-- A local temporary table under an alias. -/
def ofTemporary (handle : Alias) : Source :=
  ⟨handle, .temporary⟩

/-- A statement in place of a table, unless it holds an error. -/
def ofDerived (handle : Alias) (select : Select) : Except QueryError Source := do
  return ⟨handle, .derived (← select.result)⟩

/-- A statement as a common table, unless it holds an error. -/
def ofCommon (handle : Alias) (select : Select) : Except QueryError Source := do
  return ⟨handle, .common (← select.result)⟩

end Source

end SqlSelect
