import SqlSelect.Terminal

/-!
# Values on their way to SQLite and back

A driver is handed a value as an argument of its own type.  The cells that it gives back name
their storage class, and by that name they are read as values.  Rows are mapped one by one, in
the order in which they come.
-/

namespace SqlSelect.Sqlite

/-- An argument of a statement, as a driver is handed it. -/
inductive Argument where
  /-- An integer that is not there. -/
  | missing
  | bool (value : Bool)
  | integer (value : Int64)
  | float (value : Double)
  | text (value : String)
  | blob (bytes : List UInt8)
deriving DecidableEq, Repr

/-- The argument that carries a value. -/
def Argument.ofValue : Value → Argument
  | .null => .missing
  | .bool value => .bool value
  | .integer value => .integer value
  | .float value => .float value
  | .text value => .text value
  | .blob bytes => .blob bytes

/-- A cell, as a driver gives it back: the name of its storage class, and what comes of reading
it as any type. -/
structure RawCell where
  isNull : Bool
  storage : String
  integer : Except String Int64
  float : Except String Double
  blob : Except String (List UInt8)
  text : Except String String

namespace RawCell

/-- The names of storage classes that are read as integers. -/
def integerNames : List String :=
  ["INTEGER", "INT", "INT8", "BIGINT", "BOOLEAN"]

/-- The names of storage classes that are read as floats. -/
def floatNames : List String :=
  ["REAL", "FLOAT", "DOUBLE", "NUMERIC"]

/-- The value of a cell, by its storage class.  What has any other name is read as text. -/
def value (cell : RawCell) : Except String Value :=
  let storage := String.ofList (cell.storage.toList.map Char.toUpper)
  if cell.isNull then .ok .null
  else if integerNames.contains storage then cell.integer.map .integer
  else if floatNames.contains storage then cell.float.map .float
  else if storage = "BLOB" then cell.blob.map .blob
  else cell.text.map .text

end RawCell

/-- The row of some cells, unless one of them cannot be read. -/
def toRow (cells : List RawCell) : Except QueryError Row :=
  ((cells.mapM RawCell.value).map Row.mk).mapError .executor

/-- What some rows are mapped to, or the error of the driver, or else the first one that comes of
reading and mapping them. -/
def fetch {α : Type} (reply : Except String (List (List RawCell)))
    (mapper : Row → Except QueryError α) : Except QueryError (List α) := do
  (← reply.mapError .executor).mapM fun cells => do mapper (← toRow cells)

/-- What runs statements with arguments on a database, whatever its states are. -/
structure Driver (State : Type) where
  /-- Run a statement that returns no rows, and tell how many it changed. -/
  perform : String → List Argument → State → Except String Nat × State
  /-- The rows that a statement returns. -/
  answer : String → List Argument → State → Except String (List (List RawCell))

namespace Driver

variable {State : Type}

/-- Run a statement that returns no rows. -/
def execute (driver : Driver State) (statement : Prepared) (state : State) :
    Except QueryError Nat × State :=
  let (changed, next) :=
    driver.perform statement.text (statement.arguments.map Argument.ofValue) state
  (changed.mapError .executor, next)

/-- The reply to a statement that returns rows. -/
def reply (driver : Driver State) (state : State) (statement : Prepared) :
    Except String (List (List RawCell)) :=
  driver.answer statement.text (statement.arguments.map Argument.ofValue) state

/-- Run a statement and map every row that it returns. -/
def query {α : Type} (driver : Driver State) (state : State) (statement : Prepared)
    (mapper : Row → Except QueryError α) : Except QueryError (List α) :=
  fetch (driver.reply state statement) mapper

/-- The executor that hands over the rows as they are. -/
def executor (driver : Driver State) (state : State) : Executor Id :=
  fun statement => driver.query state statement .ok

end Driver

end SqlSelect.Sqlite
