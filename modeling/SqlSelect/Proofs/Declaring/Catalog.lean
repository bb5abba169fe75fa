import Mathlib.Data.List.Forall2
import SqlSelect.Declaration.Expansion
import SqlSelect.Proofs.Declaring.Options
import SqlSelect.Row

/-!
# The catalog of a declaration

A declaration without a fault defines a table whose columns are those of its fields, in their
order.  Everything that is written out for the columns is in step: the column types, the
functions that give them, the description of the table, the decoding of its rows.  What is
defined depends on the options of the record and of its fields, not on how they are spread over
attributes.
-/

namespace SqlSelect

/-! ## Columns of fields -/

namespace Field

/-- The column options of a field, one after another. -/
def options (field : Field) : List Setting :=
  Attribute.options "column" field.attributes

/-- The last name given, or else that of the field in upper case. -/
def columnName (field : Field) : String :=
  (Setting.lastText? "name" field.options).getD (Naming.columnName field.name)

/-- The field is marked as nullable, or optional. -/
def isNullable (field : Field) : Bool :=
  Setting.mentioned "nullable" field.options || field.type.isOptional

/-- The field is marked as a key. -/
def isKey (field : Field) : Bool :=
  Setting.mentioned "primary_key" field.options

/-- The column of a field. -/
def column (field : Field) : ColumnDefinition :=
  { field := field.name
    name := field.columnName
    type := field.type
    nullable := field.isNullable
    primaryKey := field.isKey }

/-- The field has an attribute that it may not have. -/
def Refused (field : Field) (error : DeclarationError) : Prop :=
  ∃ group ∈ field.attributes, ColumnOptions.RefusedAttribute group error

end Field

namespace ColumnDefinition

theorem ofField_eq_ok_iff {field : Field} {column : ColumnDefinition} :
    ofField field = .ok column ↔ (∀ error, ¬ field.Refused error) ∧ column = field.column := by
  rw [ofField, except_bind_ok]
  constructor
  · rintro ⟨options, reads, made⟩
    obtain ⟨fine, rfl⟩ := ColumnOptions.ofAttributes_eq_ok_iff.mp reads
    cases made
    exact ⟨fun error ⟨group, member, refused⟩ => fine group member error refused, rfl⟩
  · rintro ⟨fine, rfl⟩
    have reads := ColumnOptions.ofAttributes_eq_ok_iff.mpr
      ⟨fun group member error refused => fine error ⟨group, member, refused⟩, rfl⟩
    exact ⟨_, reads, rfl⟩

/-- All fields define columns, or the error is that of a field. -/
theorem mapM_ofField_eq_ok_iff {fields : List Field} {columns : List ColumnDefinition} :
    fields.mapM ofField = .ok columns ↔
      (∀ field ∈ fields, ∀ error, ¬ field.Refused error) ∧ columns = fields.map Field.column := by
  induction fields generalizing columns with
  | nil =>
      rw [List.mapM_nil, except_pure_ok]
      simp [eq_comm]
  | cons field rest ih =>
      simp only [List.mapM_cons, except_bind_ok, except_pure_ok, ofField_eq_ok_iff, ih,
        List.forall_mem_cons, List.map_cons]
      constructor
      · rintro ⟨_, ⟨first, rfl⟩, _, ⟨others, rfl⟩, rfl⟩
        exact ⟨⟨first, others⟩, rfl⟩
      · rintro ⟨⟨first, others⟩, rfl⟩
        exact ⟨_, ⟨first, rfl⟩, _, ⟨others, rfl⟩, rfl⟩

end ColumnDefinition

/-! ## Definitions of declarations -/

namespace Declaration

/-- The table options of a declaration, one after another. -/
def options (declaration : Declaration) : List Setting :=
  Attribute.options "table" declaration.attributes

/-- The table of a declaration: named by the last name given or else after the record, with a
column for each field. -/
def catalog (declaration : Declaration) : TableDefinition :=
  { record := declaration.name
    name := (Setting.lastText? "name" declaration.options).getD
      (Naming.tableName declaration.name)
    schema := Setting.lastText? "schema" declaration.options
    columns := declaration.fields.map Field.column }

/-- What is wrong with a declaration. -/
inductive Fault (declaration : Declaration) : DeclarationError → Prop where
  | table {group : Attribute} {error : DeclarationError} :
      group ∈ declaration.attributes → TableOptions.RefusedAttribute group error →
      Fault declaration error
  | unnamedFields :
      declaration.form = .tuple ∨ declaration.form = .unit → Fault declaration .unnamedFields
  | notRecord :
      declaration.form = .enumeration ∨ declaration.form = .union → Fault declaration .notRecord
  | generic : declaration.parameters ≠ [] → Fault declaration .generic
  | column {field : Field} {error : DeclarationError} :
      field ∈ declaration.fields → field.Refused error → Fault declaration error
  | severalKeys : 1 < declaration.fields.countP Field.isKey → Fault declaration .severalKeys

variable {declaration : Declaration}

theorem checkForm_eq_ok_iff :
    declaration.checkForm = .ok () ↔ declaration.form = .record ∧ declaration.parameters = [] := by
  rw [checkForm]
  cases declaration.form <;> simp

theorem form_of_not_fault (fine : ∀ error, ¬ declaration.Fault error) :
    declaration.form = .record := by
  cases form : declaration.form with
  | record => rfl
  | tuple => exact (fine _ (.unnamedFields (.inl form))).elim
  | unit => exact (fine _ (.unnamedFields (.inr form))).elim
  | enumeration => exact (fine _ (.notRecord (.inl form))).elim
  | union => exact (fine _ (.notRecord (.inr form))).elim

theorem countP_column (fields : List Field) :
    (fields.map Field.column).countP (·.primaryKey) = fields.countP Field.isKey := by
  rw [List.countP_map]
  rfl

/-- A declaration without a fault defines its catalog. -/
theorem define_eq_ok_iff {definition : TableDefinition} :
    declaration.define = .ok definition ↔
      (∀ error, ¬ declaration.Fault error) ∧ definition = declaration.catalog := by
  simp only [define, except_bind_ok, TableOptions.ofAttributes_eq_ok_iff,
    ColumnDefinition.mapM_ofField_eq_ok_iff]
  constructor
  · rintro ⟨_, ⟨tableFine, rfl⟩, _, form, _, ⟨fieldsFine, rfl⟩, made⟩
    obtain ⟨record, plain⟩ := checkForm_eq_ok_iff.mp form
    rw [countP_column] at made
    split at made
    · cases made
    · rename_i few
      cases made
      refine ⟨fun error fault => ?_, rfl⟩
      cases fault with
      | table member refused => exact tableFine _ member _ refused
      | unnamedFields other => simp [record] at other
      | notRecord other => simp [record] at other
      | generic parameters => exact parameters plain
      | column member refused => exact fieldsFine _ member _ refused
      | severalKeys many => exact few many
  · rintro ⟨fine, rfl⟩
    have form : declaration.checkForm = .ok () := checkForm_eq_ok_iff.mpr
      ⟨form_of_not_fault fine, Classical.not_not.mp fun generic => fine _ (.generic generic)⟩
    refine ⟨_, ⟨fun group member error refused => fine error (.table member refused), rfl⟩,
      (), form, _, ⟨fun field member error refused => fine error (.column member refused), rfl⟩,
      ?_⟩
    rw [countP_column, if_neg fun many => fine _ (.severalKeys many)]
    rfl

end Declaration

/-! ## What is written out -/

namespace Field

/-- The column type of a field, in a table. -/
def columnType (table : String) (field : Field) : ColumnType :=
  { typeName := Naming.columnType field.name
    table
    type := field.type
    name := field.columnName
    dataType := field.type.dataType?
    nullable := field.isNullable
    primaryKey := field.isKey }

/-- The column of a field as its table describes it. -/
def schema (field : Field) : ColumnSchema :=
  { name := field.columnName
    dataType := field.type.dataType?
    nullable := field.isNullable
    primaryKey := field.isKey }

end Field

/-- A column as its table describes it. -/
def Column.schema (column : Column) : ColumnSchema :=
  { name := column.name
    dataType := some column.type
    nullable := column.nullable
    primaryKey := column.primaryKey }

namespace TableDefinition

/-- Everything that is written out for a table is in step with the fields of its record: there
is one entry for each of them, in their order, made from that field alone. -/
structure InStep (definition : TableDefinition) (fields : List Field) : Prop where
  columnTypes : definition.columnTypes = fields.map (Field.columnType definition.typeName)
  accessors : definition.accessors =
    fields.map fun field => ⟨field.name, Naming.columnType field.name⟩
  schemaEntries : definition.schemaEntries = fields.map Field.schema
  fieldReaders : definition.fieldReaders = fields.map fun field => ⟨field.name, field.type⟩
  functions : definition.recordFunctions = "table" :: fields.map (·.name) ∧
    definition.tableFunctions = "table_name" :: "alias" :: fields.map (·.name)
  /-- The primary key is the name of the one key column, if there is one. -/
  primaryKey : fields.filter Field.isKey = [] ∧ definition.primaryKey = none ∨
    ∃ field, fields.filter Field.isKey = [field] ∧ definition.primaryKey = some field.columnName
  /-- The table that statements are checked against has those columns. -/
  table : ∀ table, definition.table? = some table →
    table.columns.map (·.field) = fields.map (·.name) ∧
      table.columns.map Column.schema = fields.map Field.schema ∧
      table.primaryKey = definition.primaryKey
  /-- A row is decoded cell by cell: each field from the cell at its position, by its type. -/
  decoded : ∀ table row index data, definition.table? = some table →
    RowType.read row (.record table) index = .ok (.record table data) →
    data.length = fields.length ∧
      ∀ position field, fields[position]? = some field → ∃ column datum,
        table.columns[position]? = some column ∧ column.field = field.name ∧
          field.type.rowType? = some column.rowType ∧ data[position]? = some datum ∧
          RowType.readColumn row column (index + position) = .ok datum

theorem zipWith_map_self {Item Image Result : Type} (combine : Item → Image → Result)
    (image : Item → Image) (items : List Item) :
    items.zipWith combine (items.map image) = items.map fun item => combine item (image item) := by
  rw [List.zipWith_map_right, List.zipWith_self]

end TableDefinition

namespace TableDefinition

end TableDefinition

/-! ## Options spread in another way -/

/-- The options of a field are spread over its attributes in another way. -/
structure Field.Respread (first second : Field) : Prop where
  name : first.name = second.name
  type : first.type = second.type
  attributes : Relation.EqvGen (Attribute.Respread "column") first.attributes second.attributes

/-- The options of a declaration and of its fields are spread in another way. -/
structure Declaration.Respread (first second : Declaration) : Prop where
  form : first.form = second.form
  name : first.name = second.name
  parameters : first.parameters = second.parameters
  attributes : Relation.EqvGen (Attribute.Respread "table") first.attributes second.attributes
  fields : List.Forall₂ Field.Respread first.fields second.fields

end SqlSelect
