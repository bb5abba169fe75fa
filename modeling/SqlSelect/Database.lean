import SqlSelect.Dialect
import SqlSelect.Text.Escaped

/-!
# Databases

A `Database` is what a statement is written for: a dialect, and the schema of the
tables that declare none.
-/

namespace SqlSelect

/-- A dialect together with a default schema. -/
structure Database where
  dialect : Dialect := .ansi
  defaultSchema : Option String := none
deriving DecidableEq, Repr

namespace Database

/-- The name of a table behind its own schema, or else the default one. -/
def tableName (database : Database) (table : Table) : String :=
  database.dialect.qualifiedName (table.schema <|> database.defaultSchema) table.name

/-- The database in readable form. -/
def inspect (database : Database) : String :=
  "Database \x7b dialect: " ++ Escaped.quote database.dialect.name ++ ", default_schema: " ++
    (match database.defaultSchema with
      | some schema => "Some(" ++ Escaped.quote schema ++ ")"
      | none => "None") ++ " \x7d"

end Database

end SqlSelect
