import SqlSelect.Text.Uppercase

/-!
# Names made from names

Tables and columns that are given no name are called after their record and field.
Letters outside ASCII keep their case; they count as upper case where a word starts.
-/

namespace SqlSelect.Naming

/-- A character behind the first, with a low line ahead of it if it starts a word. -/
def snakeStep (char : Char) : List Char :=
  if isUppercase char then ['_', char.toUpper] else [char.toUpper]

/-- The words of a name in upper case, joined by low lines. -/
def upperSnake : List Char → List Char
  | [] => []
  | first :: rest => first.toUpper :: rest.flatMap snakeStep

/-- The words of a name, which low lines separate, each with a capital.  `starting`
tells whether a word starts here. -/
def pascal (starting : Bool) : List Char → List Char
  | [] => []
  | char :: rest =>
    if char = '_' then pascal true rest
    else (if starting then char.toUpper else char) :: pascal false rest

/-- The table name of a record. -/
def tableName (record : String) : String :=
  String.ofList (upperSnake record.toList)

/-- The column name of a field. -/
def columnName (field : String) : String :=
  String.ofList (field.toList.map Char.toUpper)

/-- The name of the type that stands for a field's column. -/
def columnType (field : String) : String :=
  String.ofList (pascal true field.toList)

end SqlSelect.Naming
