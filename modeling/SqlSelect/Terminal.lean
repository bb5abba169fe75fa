import SqlSelect.Select.Step

/-!
# Running statements

A terminal prepares a statement, hands it to an executor and decodes the rows that
come back.  The executor may work in any monad, so that one definition serves
executors that block, that wait, and that only record what they are asked.
-/

namespace SqlSelect

/-- What runs prepared statements: it answers with rows, or fails. -/
abbrev Executor (m : Type → Type) :=
  Prepared → m (Except QueryError (List Row))

/-- An executor that answers every statement alike and records what it is handed. -/
def Executor.recording (reply : Except QueryError (List Row)) :
    Executor (StateM (List Prepared)) :=
  fun prepared => do
    modify (· ++ [prepared])
    return reply

/-- The row, if there is at most one. -/
def atMostOne (rows : List Datum) : Except QueryError (Option Datum) :=
  match rows with
  | [] => .ok none
  | [row] => .ok (some row)
  | rows => .error (.tooManyRows rows.length)

/-- The row, if there is exactly one. -/
def exactlyOne (rows : List Datum) : Except QueryError Datum := do
  match ← atMostOne rows with
  | some row => return row
  | none => throw .noSuchRow

namespace Select

variable {m : Type → Type} [Monad m]

/-- Every row of a statement, or the first error: of the statement, of the executor,
or of the first row that does not decode. -/
def list (select : Select) (executor : Executor m) : m (Except QueryError (List Datum)) :=
  match select.prepare with
  | .error error => pure (.error error)
  | .ok prepared => do
    let reply ← executor prepared
    return do (← reply).mapM select.rowType.decode

/-- The row of a statement that has at most one. -/
def optional (select : Select) (executor : Executor m) :
    m (Except QueryError (Option Datum)) := do
  let rows ← select.list executor
  return rows.bind atMostOne

/-- The row of a statement that has exactly one. -/
def single (select : Select) (executor : Executor m) : m (Except QueryError Datum) := do
  let rows ← select.list executor
  return rows.bind exactlyOne

end Select

end SqlSelect
