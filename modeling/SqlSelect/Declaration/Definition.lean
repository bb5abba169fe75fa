import SqlSelect.Catalog
import SqlSelect.Declaration
import SqlSelect.Declaration.Naming

/-!
# Table definitions

What a declaration defines: the table, its columns in field order, and the names of
the types and functions that give access to them.  Options are read in order, so a
later name replaces an earlier one and flags add up.
-/

namespace SqlSelect

/-- Why a declaration defines no table. -/
inductive DeclarationError where
  | unknownTableOption
  | unknownColumnOption
  /-- A name without a value. -/
  | missingValue
  /-- A flag with a value. -/
  | flagWithValue
  | notText
  /-- Table options without parentheses. -/
  | noTableOptions
  | unnamedFields
  | notRecord
  | generic
  | severalKeys
deriving DecidableEq, Repr

/-- The text of an error. -/
def DeclarationError.message : DeclarationError → String
  | .unknownTableOption => "unknown table attribute"
  | .unknownColumnOption => "unknown column attribute"
  | .missingValue => "expected `=`"
  | .flagWithValue => "expected `,`"
  | .notText => "expected a string literal"
  | .noTableOptions => "expected attribute arguments in parentheses: #[table(...)]"
  | .unnamedFields => "Table derive only supports structs with named fields"
  | .notRecord => "Table derive only supports structs"
  | .generic => "Table derive does not support generic structs"
  | .severalKeys => "Table derive supports at most one primary key column"

/-- The options of a table. -/
structure TableOptions where
  name : Option String := none
  schema : Option String := none
deriving DecidableEq, Repr

/-- The options of a column. -/
structure ColumnOptions where
  name : Option String := none
  primaryKey : Bool := false
  nullable : Bool := false
deriving DecidableEq, Repr

namespace Setting

/-- The text given to an option that needs one. -/
def text (setting : Setting) : Except DeclarationError String :=
  match setting.value with
  | some (.text value) => .ok value
  | some (.number _) => .error .notText
  | none => .error .missingValue

/-- A flag takes no value. -/
def flag (setting : Setting) : Except DeclarationError Unit :=
  match setting.value with
  | some _ => .error .flagWithValue
  | none => .ok ()

end Setting

namespace TableOptions

/-- Read one option of a table. -/
def add (options : TableOptions) (setting : Setting) : Except DeclarationError TableOptions :=
  if setting.key = "name" then do return { options with name := some (← setting.text) }
  else if setting.key = "schema" then do return { options with schema := some (← setting.text) }
  else .error .unknownTableOption

/-- Read the options of one attribute. -/
def addAttribute (options : TableOptions) (group : Attribute) :
    Except DeclarationError TableOptions :=
  if group.path = "table" then
    match group.settings with
    | some settings => settings.foldlM add options
    | none => .error .noTableOptions
  else .ok options

/-- Read the options of a record. -/
def ofAttributes (attributes : List Attribute) : Except DeclarationError TableOptions :=
  attributes.foldlM addAttribute {}

end TableOptions

namespace ColumnOptions

/-- Read one option of a column. -/
def add (options : ColumnOptions) (setting : Setting) : Except DeclarationError ColumnOptions :=
  if setting.key = "primary_key" then do
    setting.flag
    return { options with primaryKey := true }
  else if setting.key = "nullable" then do
    setting.flag
    return { options with nullable := true }
  else if setting.key = "name" then do return { options with name := some (← setting.text) }
  else .error .unknownColumnOption

/-- Read the options of one attribute.  Without parentheses it holds none. -/
def addAttribute (options : ColumnOptions) (group : Attribute) :
    Except DeclarationError ColumnOptions :=
  if group.path = "column" then (group.settings.getD []).foldlM add options
  else .ok options

/-- Read the options of a field. -/
def ofAttributes (attributes : List Attribute) : Except DeclarationError ColumnOptions :=
  attributes.foldlM addAttribute {}

end ColumnOptions

/-- A column as it is defined by a field. -/
structure ColumnDefinition where
  field : String
  name : String
  type : FieldType
  nullable : Bool
  primaryKey : Bool
deriving Repr

namespace ColumnDefinition

/-- The name of the type that stands for the column. -/
def typeName (column : ColumnDefinition) : String :=
  Naming.columnType column.field

/-- The column that a field defines. -/
def ofField (field : Field) : Except DeclarationError ColumnDefinition := do
  let options ← ColumnOptions.ofAttributes field.attributes
  return {
    field := field.name
    name := options.name.getD (Naming.columnName field.name)
    type := field.type
    nullable := options.nullable || field.type.isOptional
    primaryKey := options.primaryKey }

end ColumnDefinition

/-- The table that a record defines. -/
structure TableDefinition where
  record : String
  name : String
  schema : Option String
  columns : List ColumnDefinition
deriving Repr

namespace TableDefinition

/-- The SQL name of the primary key column. -/
def primaryKey (definition : TableDefinition) : Option String :=
  (definition.columns.find? (·.primaryKey)).map (·.name)

/-- The name of the type that stands for the table. -/
def typeName (definition : TableDefinition) : String :=
  definition.record ++ "Table"

/-- The name of the module that holds the column types. -/
def moduleName (definition : TableDefinition) : String :=
  definition.record ++ "Columns"

/-- The functions of the record type. -/
def recordFunctions (definition : TableDefinition) : List String :=
  "table" :: definition.columns.map (·.field)

/-- The functions of the table type. -/
def tableFunctions (definition : TableDefinition) : List String :=
  "table_name" :: "alias" :: definition.columns.map (·.field)

end TableDefinition

namespace Declaration

/-- Only records with named fields and without parameters define tables. -/
def checkForm (declaration : Declaration) : Except DeclarationError Unit :=
  match declaration.form with
  | .record => if declaration.parameters.isEmpty then .ok () else .error .generic
  | .tuple | .unit => .error .unnamedFields
  | .enumeration | .union => .error .notRecord

/-- The table that a declaration defines, or the first fault: in the options of the
record, then in its form, then in the options of its fields. -/
def define (declaration : Declaration) : Except DeclarationError TableDefinition := do
  let options ← TableOptions.ofAttributes declaration.attributes
  declaration.checkForm
  let columns ← declaration.fields.mapM ColumnDefinition.ofField
  if 1 < columns.countP (·.primaryKey) then throw .severalKeys
  return {
    record := declaration.name
    name := options.name.getD (Naming.tableName declaration.name)
    schema := options.schema
    columns }

end Declaration

/-- The data type of a field, if it has one. -/
def FieldType.dataType? : FieldType → Option DataType
  | .path ["bool"] none => some .boolean
  | .path ["i32"] none => some .integer
  | .path ["i64"] none => some .bigInt
  | .path ["f64"] none => some .double
  | .path ["String"] none => some .text
  | .path ["Vec"] (some [.path ["u8"] none]) => some .blob
  | .path ["Option"] (some [inner]) => inner.dataType?
  | _ => none

/-- The type is an option of an option. -/
def FieldType.isTwiceOptional : FieldType → Bool
  | .path ["Option"] (some [inner]) => inner.isOptional
  | _ => false

/-- The column of a table, if its field has a data type with one option around it or none. -/
def ColumnDefinition.column? (definition : ColumnDefinition) : Option Column := do
  let type ← definition.type.dataType?
  if definition.type.isTwiceOptional then none
  else
    return {
      field := definition.field
      name := definition.name
      type
      optional := definition.type.isOptional
      nullable := definition.nullable
      primaryKey := definition.primaryKey }

/-- The table itself, if every field has a column. -/
def TableDefinition.table? (definition : TableDefinition) : Option Table := do
  let columns ← definition.columns.mapM ColumnDefinition.column?
  return {
    identity := definition.record
    name := definition.name
    schema := definition.schema
    columns }

end SqlSelect
