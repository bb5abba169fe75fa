import SqlSelect.Error

/-!
# Typed scalars

A `Scalar` is a value of one of the logical data types, as a program holds it.
Several data types share a storage class, so reading a cell back needs the type
that is expected there.
-/

namespace SqlSelect

/-- A value of a logical data type. -/
inductive Scalar where
  | boolean (value : Bool)
  | integer (value : Int32)
  | bigInt (value : Int64)
  | double (value : Double)
  | text (value : String)
  | blob (bytes : List UInt8)
deriving DecidableEq, Repr

namespace Scalar

/-- The data type of a scalar. -/
def type : Scalar → DataType
  | .boolean _ => .boolean
  | .integer _ => .integer
  | .bigInt _ => .bigInt
  | .double _ => .double
  | .text _ => .text
  | .blob _ => .blob

/-- The value that carries a scalar. -/
def value : Scalar → Value
  | .boolean value => .bool value
  | .integer value => .integer value.toInt64
  | .bigInt value => .integer value
  | .double value => .float value
  | .text value => .text value
  | .blob bytes => .blob bytes

end Scalar

namespace DataType

/-- The storage class that a data type is read from. -/
def kind : DataType → Kind
  | .boolean => .bool
  | .integer | .bigInt => .integer
  | .double => .float
  | .text => .text
  | .blob => .blob

/-- Read a 32-bit integer out of a 64-bit one. -/
def narrow (number : Int64) : Except RowFault Scalar :=
  if number.toInt32.toInt64 = number then .ok (.integer number.toInt32)
  else .error (.overflow number)

/-- Read a cell as a scalar of a data type.  Some databases have no boolean storage
class and hand booleans back as integers; an integer is also read as a double. -/
def read (type : DataType) (cell : Value) : Except RowFault Scalar :=
  match type, cell with
  | .boolean, .bool value => .ok (.boolean value)
  | .boolean, .integer value => .ok (.boolean (value != 0))
  | .integer, .integer value => narrow value
  | .bigInt, .integer value => .ok (.bigInt value)
  | .double, .float value => .ok (.double value)
  | .double, .integer value => .ok (.double (Double.ofInt64 value))
  | .text, .text value => .ok (.text value)
  | .blob, .blob bytes => .ok (.blob bytes)
  | type, cell => .error (.mismatch type.kind cell.kind)

end DataType

end SqlSelect
