import SqlSelect.Sqlite.Conversion

/-!
# An in-memory SQLite table

A store keeps the rows of one table of untyped columns in insertion order.  Cells are kept by
storage class, of which none is of booleans, and a NaN is kept as NULL.  At most one transaction
is open at a time; the rows it started from come back unless it is committed.
-/

namespace SqlSelect.Sqlite

/-- The database that statements for SQLite are built for. -/
def database : Database :=
  { dialect := .sqlite }

/-- A cell of a storage class, with nothing in it that could be read. -/
def RawCell.bare (storage : String) : RawCell :=
  let other := "cell of storage class " ++ storage
  { isNull := false
    storage
    integer := .error other
    float := .error other
    blob := .error other
    text := .error other }

/-- The cell in which an argument is kept. -/
def Argument.kept : Argument → RawCell
  | .missing => { RawCell.bare "NULL" with isNull := true }
  | .bool value => { RawCell.bare "INTEGER" with integer := .ok (if value then 1 else 0) }
  | .integer value => { RawCell.bare "INTEGER" with integer := .ok value }
  | .float value =>
    if value.isNan then { RawCell.bare "NULL" with isNull := true }
    else { RawCell.bare "REAL" with float := .ok value }
  | .text value => { RawCell.bare "TEXT" with text := .ok value }
  | .blob bytes => { RawCell.bare "BLOB" with blob := .ok bytes }

/-- The rows of a table, and those an open transaction started from. -/
structure Store where
  rows : List (List RawCell) := []
  saved : Option (List (List RawCell)) := none

namespace Store

/-- Add a row at the end. -/
def insert (store : Store) (arguments : List Argument) : Store :=
  { store with rows := store.rows ++ [arguments.map Argument.kept] }

/-- Remove every row. -/
def clear (store : Store) : Store :=
  { store with rows := [] }

/-- Open a transaction. -/
def begin (store : Store) : Store :=
  { store with saved := some store.rows }

/-- Keep what the open transaction has done. -/
def commit (store : Store) : Store :=
  { store with saved := none }

/-- Undo what the open transaction has done. -/
def rollback (store : Store) : Store :=
  { rows := store.saved.getD store.rows, saved := none }

end Store

/-- The ways in which the table answers a statement. -/
inductive Plan where
  /-- Every row. -/
  | every
  /-- The number of rows. -/
  | count
  /-- The rows whose cell at a position equals a value.  NULL equals nothing. -/
  | matching (position : Nat) (value : Value)

/-- The row has the value at a position. -/
def rowMatches (position : Nat) (value : Value) (row : List RawCell) : Bool :=
  match (row[position]?).map RawCell.value, (Argument.ofValue value).kept.value with
  | some (.ok cell), .ok sought => !cell.isNull && cell.equals sought
  | _, _ => false

/-- The rows a table answers with. -/
def Store.answer (store : Store) : Plan → List (List RawCell)
  | .every => store.rows
  | .count => [[(Argument.integer (Int64.ofNat store.rows.length)).kept]]
  | .matching position value => store.rows.filter (rowMatches position value)

/-- The driver of a store: what returns no rows inserts one, and what returns rows is answered
by a plan. -/
def Store.driver (plan : Plan) : Driver Store where
  perform _ arguments store := (.ok 1, store.insert arguments)
  answer _ _ store := .ok (store.answer plan)

/-- The executor that answers statements by a plan. -/
def Store.executor (store : Store) (plan : Plan) : Executor Id :=
  (Store.driver plan).executor store

end SqlSelect.Sqlite
