import SqlSelect.Catalog
import SqlSelect.Value

/-!
# Dialects

The eight databases a statement can be written for.  A dialect is a table of
spellings and abilities; every entry is a function of its arguments alone.  The
names are here, the statement suffixes are in `SqlSelect.Dialect.Suffix`.
-/

namespace SqlSelect

/-- Functions whose spelling depends on the database. -/
inductive SqlFunction where
  | count
  | sum
  | avg
  | min
  | max
  | upper
  | lower
  | length
  | trim
  | abs
  | coalesce
  | substring
  | rowNumber
  | rank
  | denseRank
  | firstValue
  | lastValue
  | lag
  | lead
deriving DecidableEq, Repr

namespace SqlFunction

/-- Every function, in the order of its declaration. -/
def all : List SqlFunction :=
  [.count, .sum, .avg, .min, .max, .upper, .lower, .length, .trim, .abs, .coalesce,
    .substring, .rowNumber, .rank, .denseRank, .firstValue, .lastValue, .lag, .lead]

@[simp] theorem mem_all (function : SqlFunction) : function ∈ all := by
  cases function <;> decide

/-- The standard spelling. -/
def ansiName : SqlFunction → String
  | .count => "count"
  | .sum => "sum"
  | .avg => "avg"
  | .min => "min"
  | .max => "max"
  | .upper => "upper"
  | .lower => "lower"
  | .length => "char_length"
  | .trim => "trim"
  | .abs => "abs"
  | .coalesce => "coalesce"
  | .substring => "substring"
  | .rowNumber => "row_number"
  | .rank => "rank"
  | .denseRank => "dense_rank"
  | .firstValue => "first_value"
  | .lastValue => "last_value"
  | .lag => "lag"
  | .lead => "lead"

end SqlFunction

/-- The databases a statement can be written for. -/
inductive Dialect where
  | ansi
  | postgres
  | mysql
  | sqlite
  | sqlserver
  | oracle
  | db2
  | derby
deriving DecidableEq, Repr

namespace Dialect

/-- Every dialect, in the order of its declaration. -/
def all : List Dialect :=
  [.ansi, .postgres, .mysql, .sqlite, .sqlserver, .oracle, .db2, .derby]

/-- The name of a dialect in configurations and error messages. -/
def name : Dialect → String
  | .ansi => "ansi"
  | .postgres => "postgres"
  | .mysql => "mysql"
  | .sqlite => "sqlite"
  | .sqlserver => "sqlserver"
  | .oracle => "oracle"
  | .db2 => "db2"
  | .derby => "derby"

/-- The dialect of that exact name. -/
def ofName? (name : String) : Option Dialect :=
  all.find? (·.name == name)

/-- The placeholder of the argument at `position`, counted from one. -/
def placeholder (dialect : Dialect) (position : Nat) : String :=
  match dialect with
  | .postgres => "$" ++ position.repr
  | _ => "?"

/-- The text between a relation and its alias. -/
def aliasSeparator : Dialect → String
  | .oracle => " "
  | _ => " as "

/-- A table name behind its schema.  The empty schema is no schema. -/
def qualifiedName (_dialect : Dialect) (schema : Option String) (name : String) : String :=
  match schema with
  | some schema => if schema.isEmpty then name else schema ++ "." ++ name
  | none => name

/-- The name of a local temporary table, where the database has them. -/
def temporaryName? (dialect : Dialect) (name : String) : Option String :=
  match dialect with
  | .sqlserver => some ("#" ++ name)
  | .db2 | .derby => some ("session." ++ name)
  | .oracle => none
  | _ => some name

/-- Window functions take PARTITION BY. -/
def supportsPartition : Dialect → Bool
  | .derby => false
  | _ => true

/-- Window functions take ORDER BY. -/
def supportsWindowOrder : Dialect → Bool
  | .derby => false
  | _ => true

/-- Row numbering must state an order. -/
def rowNumberNeedsOrder : Dialect → Bool
  | .sqlserver | .oracle => true
  | _ => false

/-- The spelling of a function. -/
def functionName (dialect : Dialect) (function : SqlFunction) : String :=
  match dialect, function with
  | .sqlite, .length | .oracle, .length | .db2, .length => "length"
  | .sqlite, .substring | .oracle, .substring | .db2, .substring => "substr"
  | .sqlserver, .length => "len"
  | _, function => function.ansiName

/-- The operator that joins texts, where there is one; the other dialects have a
function of two arguments. -/
def concatOperator? : Dialect → Option String
  | .mysql | .sqlserver => none
  | _ => some "||"

/-- The name of a data type as the target of a cast. -/
def castName (dialect : Dialect) (type : DataType) : String :=
  match dialect with
  | .ansi =>
    match type with
    | .boolean => "boolean"
    | .integer => "integer"
    | .bigInt => "bigint"
    | .double => "double precision"
    | .text => "varchar(4000)"
    | .blob => "blob"
  | .postgres =>
    match type with
    | .boolean => "boolean"
    | .integer => "integer"
    | .bigInt => "bigint"
    | .double => "double precision"
    | .text => "text"
    | .blob => "bytea"
  | .mysql =>
    match type with
    | .boolean | .integer | .bigInt => "signed"
    | .double => "double"
    | .text => "char"
    | .blob => "binary"
  | .sqlite =>
    match type with
    | .boolean | .integer | .bigInt => "integer"
    | .double => "real"
    | .text => "text"
    | .blob => "blob"
  | .sqlserver =>
    match type with
    | .boolean => "bit"
    | .integer => "int"
    | .bigInt => "bigint"
    | .double => "float"
    | .text => "nvarchar(max)"
    | .blob => "varbinary(max)"
  | .oracle =>
    match type with
    | .boolean => "number(1)"
    | .integer => "number(10)"
    | .bigInt => "number(19)"
    | .double => "binary_double"
    | .text => "varchar2(4000)"
    | .blob => "blob"
  | .db2 =>
    match type with
    | .boolean => "smallint"
    | .integer => "integer"
    | .bigInt => "bigint"
    | .double => "double"
    | .text => "varchar(4000)"
    | .blob => "blob"
  | .derby =>
    match type with
    | .boolean => "boolean"
    | .integer => "integer"
    | .bigInt => "bigint"
    | .double => "double"
    | .text => "varchar(4000)"
    | .blob => "blob"

/-- The literal of a value.  Databases without a boolean type write a digit. -/
def literal (dialect : Dialect) (value : Value) : String :=
  match dialect, value with
  | .sqlserver, .bool value | .oracle, .bool value => if value then "1" else "0"
  | _, value => value.literal

end Dialect

end SqlSelect
