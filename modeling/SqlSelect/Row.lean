import SqlSelect.Scalar

/-!
# Rows and what they decode to

A row is a list of cells.  A `RowType` says how many cells in a row belong to one
value and how they are read: scalars take one cell, records one per column, tuples
those of their members, and an optional value is absent when all its cells are NULL.
-/

namespace SqlSelect

/-- One result row: a cell for each entry of the SELECT list. -/
structure Row where
  cells : List Value
deriving DecidableEq, Repr

namespace Row

/-- The number of cells. -/
def width (row : Row) : Nat :=
  row.cells.length

/-- The cell at a position. -/
def get (row : Row) (index : Nat) : Except QueryError Value :=
  match row.cells[index]? with
  | some cell => .ok cell
  | none => .error (.rowMapping (.outOfRange index row.width))

/-- Equality cell by cell. -/
def equals (left right : Row) : Bool :=
  left.width == right.width && (left.cells.zip right.cells).all fun (a, b) => a.equals b

/-- All of `count` cells from `index` on are NULL. -/
def allNull (row : Row) : Nat → Nat → Except QueryError Bool
  | _, 0 => .ok true
  | index, count + 1 => do
    let cell ← row.get index
    let rest ← row.allNull (index + 1) count
    return cell.isNull && rest

end Row

/-- What a run of cells decodes to. -/
inductive RowType where
  | scalar (type : DataType)
  | optional (inner : RowType)
  | record (table : Table)
  | tuple (members : List RowType)
deriving Repr

/-- A decoded value. -/
inductive Datum where
  | scalar (value : Scalar)
  | absent
  | present (value : Datum)
  | record (table : Table) (fields : List Datum)
  | tuple (members : List Datum)
deriving Repr

/-- The type of a column: optional if its field is. -/
def Column.rowType (column : Column) : RowType :=
  if column.optional then .optional (.scalar column.type) else .scalar column.type

namespace RowType

mutual

/-- The number of cells of a type. -/
def width : RowType → Nat
  | .scalar _ => 1
  | .optional inner => inner.width
  | .record table => table.columns.length
  | .tuple members => totalWidth members

/-- The number of cells of several types in a row. -/
def totalWidth : List RowType → Nat
  | [] => 0
  | member :: rest => member.width + totalWidth rest

end

/-- Read one cell as a scalar. -/
def readScalar (row : Row) (type : DataType) (index : Nat) : Except QueryError Scalar := do
  let cell ← row.get index
  (type.read cell).mapError .rowMapping

/-- Read the cell of a column. -/
def readColumn (row : Row) (column : Column) (index : Nat) : Except QueryError Datum :=
  if column.optional then do
    if ← row.allNull index 1 then return .absent
    return .present (.scalar (← readScalar row column.type index))
  else do
    return .scalar (← readScalar row column.type index)

/-- Read the cells of some columns in a row. -/
def readColumns (row : Row) : List Column → Nat → Except QueryError (List Datum)
  | [], _ => .ok []
  | column :: rest, index => do
    let field ← readColumn row column index
    return field :: (← readColumns row rest (index + 1))

mutual

/-- Read a value from the cells at `index`. -/
def read (row : Row) : RowType → Nat → Except QueryError Datum
  | .scalar type, index => do return .scalar (← readScalar row type index)
  | .optional inner, index => do
    if ← row.allNull index inner.width then return .absent
    return .present (← inner.read row index)
  | .record table, index => do return .record table (← readColumns row table.columns index)
  | .tuple members, index => do return .tuple (← readAll row members index)

/-- Read several values from cells in a row. -/
def readAll (row : Row) : List RowType → Nat → Except QueryError (List Datum)
  | [], _ => .ok []
  | member :: rest, index => do
    let value ← member.read row index
    return value :: (← readAll row rest (index + member.width))

end

/-- Read a whole row, which must have exactly the cells of the type. -/
def decode (type : RowType) (row : Row) : Except QueryError Datum :=
  if row.width = type.width then type.read row 0
  else .error (.rowMapping (.wrongWidth type.width row.width))

end RowType

/-- The elements of a statement's rows: one for each source or projected entry. -/
abbrev Shape := List RowType

namespace Shape

/-- What a row of a shape decodes to: its one element, or all of them in a tuple. -/
def rowType : Shape → RowType
  | [element] => element
  | elements => .tuple elements

/-- Every element may be absent. -/
def nullable (shape : Shape) : Shape :=
  shape.map .optional

end Shape

end SqlSelect
