import SqlSelect.Database
import SqlSelect.Error

/-!
# Scopes

A scope holds the aliases that are visible at one point of a statement, in levels:
its own aliases first, then those of each enclosing statement.  A column is bound
at the nearest level that has a candidate for it, and only if it has exactly one.
-/

namespace SqlSelect

/-- The aliases visible at one point of a statement. -/
structure Scope where
  /-- The database the statement is written for. -/
  database : Database
  /-- The aliases of this level, in the order they were added. -/
  nearest : List Alias
  /-- The levels of the enclosing statements, innermost first. -/
  enclosing : List (List Alias)
deriving DecidableEq, Repr

namespace Scope

/-- A scope without aliases. -/
def empty (database : Database) : Scope :=
  ⟨database, [], []⟩

/-- An empty level inside `scope`. -/
def nested (scope : Scope) : Scope :=
  ⟨scope.database, [], scope.nearest :: scope.enclosing⟩

/-- The scope with one more alias at its own level. -/
def plus (scope : Scope) (handle : Alias) : Scope :=
  { scope with nearest := scope.nearest ++ [handle] }

/-- Every level, nearest first. -/
def levels (scope : Scope) : List (List Alias) :=
  scope.nearest :: scope.enclosing

/-- The scope of the enclosing statement. -/
def outer? (scope : Scope) : Option Scope :=
  match scope.enclosing with
  | [] => none
  | nearest :: enclosing => some ⟨scope.database, nearest, enclosing⟩

/-- Every visible alias, nearest level first. -/
def visible (scope : Scope) : List Alias :=
  scope.levels.flatten

/-- The alias is visible here or in an enclosing statement. -/
def contains (scope : Scope) (handle : Alias) : Bool :=
  scope.visible.any (·.same handle)

/-- The aliases of one level to which the reference could be bound. -/
def candidates (column : ColumnInfo) (hint : Hint) (level : List Alias) : List Alias :=
  level.filter fun handle => hint.admits handle && handle.exposes column

/-- The candidates of the nearest level that has any. -/
def nearestCandidates (column : ColumnInfo) (hint : Hint) : List (List Alias) → List Alias
  | [] => []
  | level :: levels =>
    match candidates column hint level with
    | [] => nearestCandidates column hint levels
    | found => found

/-- Bind a column to the one candidate of the nearest level that has any. -/
def resolve (scope : Scope) (column : ColumnInfo) (hint : Hint) :
    Except QueryError ResolvedColumn :=
  match nearestCandidates column hint scope.levels with
  | [] => .error (.unresolvedReference column scope.visible)
  | [handle] => .ok ⟨handle, column⟩
  | several => .error (.ambiguousReference column several)

/-- A scope with these levels in readable form. -/
def inspectLevels (nearest : List Alias) (enclosing : List (List Alias)) : String :=
  "Scope \x7b aliases: [" ++ ", ".intercalate (nearest.map Alias.inspect) ++ "], outer: " ++
    (match enclosing with
      | [] => "None"
      | level :: levels => "Some(" ++ inspectLevels level levels ++ ")") ++ " \x7d"

/-- The scope in readable form. -/
def inspect (scope : Scope) : String :=
  inspectLevels scope.nearest scope.enclosing

@[simp] theorem levels_nested (scope : Scope) : scope.nested.levels = [] :: scope.levels := rfl

@[simp] theorem visible_nested (scope : Scope) : scope.nested.visible = scope.visible := rfl

@[simp] theorem nearest_plus (scope : Scope) (handle : Alias) :
    (scope.plus handle).nearest = scope.nearest ++ [handle] := rfl

@[simp] theorem enclosing_plus (scope : Scope) (handle : Alias) :
    (scope.plus handle).enclosing = scope.enclosing := rfl

end Scope

end SqlSelect
