import SqlSelect.Catalog

/-!
# Aliases

An alias is one bound occurrence of a relation.  It is known by its identity: two
aliases of one table with one name are still different aliases.
-/

namespace SqlSelect

/-- One occurrence of a relation in a statement. -/
structure Alias where
  /-- What tells this alias from every other. -/
  id : Nat
  /-- The explicit name, if the alias has one. -/
  name : Option String
  /-- The table whose columns the alias exposes. -/
  table : Table
deriving DecidableEq, Repr

namespace Alias

/-- The name columns are qualified with: the explicit name, or else the table's. -/
def displayName (handle : Alias) : String :=
  handle.name.getD handle.table.name

/-- Both are the same alias. -/
def same (left right : Alias) : Bool :=
  left.id == right.id

/-- The column belongs to the relation behind the alias. -/
def exposes (handle : Alias) (column : ColumnInfo) : Bool :=
  column.table.same handle.table

/-- The alias in readable form. -/
def inspect (handle : Alias) : String :=
  handle.table.name ++ " " ++ handle.displayName

@[simp] theorem same_self (handle : Alias) : handle.same handle = true := by
  simp [same]

theorem same_comm (left right : Alias) : left.same right = right.same left := by
  simp only [same]
  exact BEq.comm

end Alias

/-- How a column reference narrows the aliases it may be bound to. -/
inductive Hint where
  /-- Any alias that exposes the column. -/
  | any
  /-- Only aliases with this display name. -/
  | named (name : String)
  /-- Only this alias. -/
  | only (handle : Alias)
deriving DecidableEq, Repr

/-- The hint lets the reference be bound to `handle`. -/
def Hint.admits : Hint → Alias → Bool
  | .any, _ => true
  | .named name, handle => handle.displayName == name
  | .only expected, handle => expected.same handle

/-- A column bound to exactly one alias. -/
structure ResolvedColumn where
  «alias» : Alias
  column : ColumnInfo
deriving DecidableEq, Repr

namespace ResolvedColumn

/-- The qualified column name as it stands in a statement. -/
def text (resolved : ResolvedColumn) : String :=
  resolved.alias.displayName ++ "." ++ resolved.column.name

/-- Both are the same column of the same alias. -/
def same (left right : ResolvedColumn) : Bool :=
  left.alias.same right.alias && left.column.same right.column

end ResolvedColumn

end SqlSelect
