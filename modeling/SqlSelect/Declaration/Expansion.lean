import SqlSelect.Declaration.Definition
import SqlSelect.Row

/-!
# What a definition expands to

A table definition is written out in separate passes over its columns: a type for each of
them, the functions that give access to these types, the description of the table, and the
reading of its rows.
-/

namespace SqlSelect

/-- The type that stands for a column. -/
structure ColumnType where
  typeName : String
  /-- The type of the table that the column belongs to. -/
  table : String
  type : FieldType
  name : String
  dataType : Option DataType
  nullable : Bool
  primaryKey : Bool
deriving Repr

/-- A column in the description of its table. -/
structure ColumnSchema where
  name : String
  dataType : Option DataType
  nullable : Bool
  primaryKey : Bool
deriving DecidableEq, Repr

/-- A function that gives access to a column, and the column type it returns. -/
structure Accessor where
  function : String
  columnType : String
deriving DecidableEq, Repr

/-- A field as it is read from a row. -/
structure FieldReader where
  field : String
  type : FieldType
deriving Repr

/-- The column as its table describes it. -/
def ColumnDefinition.schema (column : ColumnDefinition) : ColumnSchema :=
  { name := column.name
    dataType := column.type.dataType?
    nullable := column.nullable
    primaryKey := column.primaryKey }

/-- What a field is read as, if it has a data type: as optional once for each option around it. -/
def FieldType.rowType? : FieldType → Option RowType
  | .path ["Option"] (some [inner]) => inner.rowType?.map .optional
  | type => type.dataType?.map .scalar

namespace TableDefinition

/-- The names of the column types. -/
def columnTypeNames (definition : TableDefinition) : List String :=
  definition.columns.map (·.typeName)

/-- The column types. -/
def columnTypes (definition : TableDefinition) : List ColumnType :=
  definition.columns.zipWith
    (fun column typeName =>
      { typeName
        table := definition.typeName
        type := column.type
        name := column.name
        dataType := column.type.dataType?
        nullable := column.nullable
        primaryKey := column.primaryKey })
    definition.columnTypeNames

/-- The functions that give access to the column types. -/
def accessors (definition : TableDefinition) : List Accessor :=
  definition.columns.zipWith (fun column typeName => ⟨column.field, typeName⟩)
    definition.columnTypeNames

/-- The description of the table, column by column. -/
def schemaEntries (definition : TableDefinition) : List ColumnSchema :=
  definition.columns.map (·.schema)

/-- The fields in the order in which they are read. -/
def fieldReaders (definition : TableDefinition) : List FieldReader :=
  (definition.columns.map (·.field)).zipWith FieldReader.mk (definition.columns.map (·.type))

/-- What the fields are read as, one after another, if every field has a data type. -/
def rowTypes? (definition : TableDefinition) : Option (List RowType) :=
  definition.fieldReaders.mapM (·.type.rowType?)

end TableDefinition

end SqlSelect
