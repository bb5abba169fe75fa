/-!
# Tables and columns

The catalog that statements are checked against.  Tables are told apart by the
record type they were declared for, never by their SQL name: two tables may share
a name and still be different tables.
-/

namespace SqlSelect

/-- Logical data types.  Each dialect has its own name for them. -/
inductive DataType where
  | boolean
  | integer
  | bigInt
  | double
  | text
  | blob
deriving DecidableEq, Repr

/-- Every data type, in the order of its declaration. -/
def DataType.all : List DataType :=
  [.boolean, .integer, .bigInt, .double, .text, .blob]

@[simp] theorem DataType.mem_all (type : DataType) : type ∈ DataType.all := by
  cases type <;> decide

/-- A column of a table, made from one field of its record type. -/
structure Column where
  /-- The field the column was declared as. -/
  field : String
  /-- The SQL name. -/
  name : String
  type : DataType
  /-- The field may be absent, so that NULL decodes. -/
  optional : Bool
  nullable : Bool
  primaryKey : Bool
deriving DecidableEq, Repr

/-- A table with its columns in declaration order. -/
structure Table where
  /-- The record type the table belongs to. -/
  identity : String
  /-- The SQL name. -/
  name : String
  /-- The declared schema, if it is not the default one. -/
  schema : Option String
  columns : List Column
deriving DecidableEq, Repr

namespace Table

/-- Both tables belong to the same record type. -/
def same (left right : Table) : Bool :=
  left.identity == right.identity

/-- The SQL name of the primary key column. -/
def primaryKey (table : Table) : Option String :=
  (table.columns.find? (·.primaryKey)).map (·.name)

/-- The column declared as `field`. -/
def column? (table : Table) (field : String) : Option Column :=
  table.columns.find? (·.field == field)

end Table

/-- A column together with the table it belongs to. -/
structure ColumnInfo where
  table : Table
  name : String
  type : DataType
deriving DecidableEq, Repr

namespace ColumnInfo

/-- Both describe a column of one table with the same name and type. -/
def same (left right : ColumnInfo) : Bool :=
  left.table.same right.table && left.name == right.name && left.type == right.type

/-- The table name and the column name, as error messages show them. -/
def text (column : ColumnInfo) : String :=
  column.table.name ++ "." ++ column.name

end ColumnInfo

/-- The description of one column of a table. -/
def Table.info (table : Table) (column : Column) : ColumnInfo :=
  ⟨table, column.name, column.type⟩

end SqlSelect
