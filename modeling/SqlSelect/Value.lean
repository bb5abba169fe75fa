import SqlSelect.Double.Shortest
import SqlSelect.Text.Quoted

/-!
# SQL values

A `Value` is what is bound to a placeholder and what a cell of a result row
holds.  Its `literal` is the text that stands for it inside a statement.
-/

namespace SqlSelect

/-- The storage classes that an error message tells apart. -/
inductive Kind where
  | null
  | bool
  | integer
  | float
  | text
  | blob
deriving DecidableEq, Repr

/-- The name of a storage class. -/
def Kind.name : Kind → String
  | .null => "null"
  | .bool => "bool"
  | .integer => "integer"
  | .float => "float"
  | .text => "text"
  | .blob => "blob"

/-- A value that is bound as an argument or read back from a row. -/
inductive Value where
  | null
  | bool (value : Bool)
  | integer (value : Int64)
  | float (value : Double)
  | text (value : String)
  | blob (bytes : List UInt8)
deriving DecidableEq, Repr

namespace Value

/-- The storage class of a value. -/
def kind : Value → Kind
  | .null => .null
  | .bool _ => .bool
  | .integer _ => .integer
  | .float _ => .float
  | .text _ => .text
  | .blob _ => .blob

/-- The value is NULL. -/
def isNull : Value → Bool
  | .null => true
  | _ => false

/-- The value can be written as a literal.  Infinities and NaN cannot. -/
def hasLiteral : Value → Bool
  | .float number => number.isFinite
  | _ => true

/-- The literal of a value in standard SQL. -/
def literal : Value → String
  | .null => "null"
  | .bool true => "true"
  | .bool false => "false"
  | .integer number => toString number.toInt
  | .float number => number.text
  | .text content => Quoted.literal content
  | .blob bytes => Hexadecimal.literal bytes

/-- The literal starts with a minus sign, or would if the value had one. -/
def isNegative : Value → Bool
  | .integer number => decide (number < 0)
  | .float number => number.isNegative
  | _ => false

/-- Equality of cells.  Values of different storage classes differ, and floats
are compared as numbers. -/
def equals : Value → Value → Bool
  | .float left, .float right => left.equals right
  | left, right => decide (left = right)

@[simp] theorem isNull_iff (value : Value) : value.isNull = true ↔ value = .null := by
  cases value <;> simp [isNull]

end Value

end SqlSelect
