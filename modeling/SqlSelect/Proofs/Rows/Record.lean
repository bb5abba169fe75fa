import Mathlib.Data.List.Forall2
import SqlSelect.Row

/-!
# Records in a row

A record has a field for each column of its table, missing only where the column is
optional.  Wherever its cells stand in a row, they are read back as the record.  Behind
layers of options it is read back as present as long as one of its cells is not NULL, and as
absent if all of them are.
-/

namespace SqlSelect

/-- A column admits a scalar of its type, and an optional one also none. -/
structure Column.Admits (column : Column) (field : Option Scalar) : Prop where
  typed : ∀ scalar ∈ field, scalar.type = column.type
  missing : field = none → column.optional = true

/-- A value of the row type of a table. -/
structure Record (table : Table) where
  fields : List (Option Scalar)
  fits : List.Forall₂ Column.Admits table.columns fields

/-- The cell of a field. -/
def Column.cell : Option Scalar → Value
  | some scalar => scalar.value
  | none => .null

/-- What the cell of a field decodes to. -/
def Column.datum (column : Column) : Option Scalar → Datum
  | some scalar => if column.optional then .present (.scalar scalar) else .scalar scalar
  | none => .absent

namespace Record

variable {table : Table}

/-- The cells of a record, in the order of the columns. -/
def cells (record : Record table) : List Value :=
  record.fields.map Column.cell

/-- The record as it is decoded. -/
def datum (record : Record table) : Datum :=
  .record table (List.zipWith Column.datum table.columns record.fields)

@[simp] theorem length_cells (record : Record table) :
    record.cells.length = table.columns.length := by
  rw [cells, List.length_map, record.fits.length_eq]

end Record

/-! ## Cells at a place -/

/-- The row has these cells from `index` on. -/
def Row.HasAt (row : Row) (index : Nat) (cells : List Value) : Prop :=
  ∃ before after, row.cells = before ++ (cells ++ after) ∧ before.length = index

namespace Row.HasAt

variable {row : Row} {index : Nat} {cells more : List Value} {cell : Value}

theorem whole (row : Row) : row.HasAt 0 row.cells :=
  ⟨[], [], by simp, rfl⟩

theorem left (has : row.HasAt index (cells ++ more)) : row.HasAt index cells := by
  obtain ⟨before, after, split, place⟩ := has
  exact ⟨before, more ++ after, by rw [split, List.append_assoc], place⟩

theorem right (has : row.HasAt index (cells ++ more)) :
    row.HasAt (index + cells.length) more := by
  obtain ⟨before, after, split, place⟩ := has
  refine ⟨before ++ cells, after, by simp [split], ?_⟩
  rw [List.length_append, place]

theorem tail (has : row.HasAt index (cell :: cells)) : row.HasAt (index + 1) cells := by
  rw [← List.singleton_append] at has
  exact has.right

theorem head (has : row.HasAt index (cell :: cells)) : row.HasAt index [cell] := by
  rw [← List.singleton_append] at has
  exact has.left

theorem get (has : row.HasAt index (cell :: cells)) : row.get index = .ok cell := by
  obtain ⟨before, after, split, place⟩ := has
  have found : row.cells[index]? = some cell := by
    rw [split, List.getElem?_append_right (Nat.le_of_eq place), place, Nat.sub_self]
    rfl
  rw [Row.get, found]

theorem allNull (has : row.HasAt index cells) :
    row.allNull index cells.length = .ok (cells.all Value.isNull) := by
  induction cells generalizing index with
  | nil => rfl
  | cons cell rest ih =>
      rw [List.length_cons, Row.allNull, has.get, ih has.tail]
      rfl

end Row.HasAt

/-! ## Reading records -/

/-- A scalar is read back from its own cell. -/
theorem Scalar.read_value (scalar : Scalar) : scalar.type.read scalar.value = .ok scalar := by
  cases scalar with
  | integer number => simp [type, value, DataType.read, DataType.narrow]
  | boolean _ | bigInt _ | double _ | text _ | blob _ => rfl

theorem Scalar.isNull_value (scalar : Scalar) : scalar.value.isNull = false := by
  cases scalar <;> rfl

namespace RowType

variable {row : Row} {index : Nat}

theorem readScalar_of_hasAt {scalar : Scalar} {more : List Value}
    (has : row.HasAt index (scalar.value :: more)) :
    readScalar row scalar.type index = .ok scalar := by
  rw [readScalar, has.get]
  simp [bind, Except.bind, scalar.read_value, Except.mapError]

theorem readColumn_of_hasAt {column : Column} {field : Option Scalar} {more : List Value}
    (admits : column.Admits field) (has : row.HasAt index (Column.cell field :: more)) :
    readColumn row column index = .ok (column.datum field) := by
  have alone : row.allNull index 1 = .ok (Column.cell field).isNull := by
    simpa using has.head.allNull
  cases field with
  | none => simp [readColumn, admits.missing rfl, alone, Column.cell, Value.isNull,
      Column.datum, bind, Except.bind, pure, Except.pure]
  | some scalar =>
      have read := readScalar_of_hasAt has
      rw [admits.typed scalar rfl] at read
      cases optional : column.optional <;>
        simp [readColumn, optional, alone, read, Column.cell, Scalar.isNull_value,
          Column.datum, bind, Except.bind, pure, Except.pure]

theorem readColumns_of_hasAt {columns : List Column} {fields : List (Option Scalar)}
    (fits : List.Forall₂ Column.Admits columns fields)
    (has : row.HasAt index (fields.map Column.cell)) :
    readColumns row columns index = .ok (List.zipWith Column.datum columns fields) := by
  induction fits generalizing index with
  | nil => rfl
  | cons admits _ ih =>
      rw [readColumns, readColumn_of_hasAt admits has, ih has.tail]
      rfl

theorem read_record {table : Table} (record : Record table)
    (has : row.HasAt index record.cells) :
    (RowType.record table).read row index = .ok record.datum := by
  rw [read, readColumns_of_hasAt record.fits has]
  rfl

/-- A type behind some layers of options. -/
def layered : Nat → RowType → RowType
  | 0, type => type
  | layers + 1, type => .optional (layered layers type)

@[simp] theorem width_layered (layers : Nat) (type : RowType) :
    (layered layers type).width = type.width := by
  induction layers with
  | zero => rfl
  | succ layers ih => rw [layered, width, ih]

end RowType

/-- A value that is present in some layers of options. -/
def Datum.layered : Nat → Datum → Datum
  | 0, datum => datum
  | layers + 1, datum => .present (layered layers datum)

namespace RowType

variable {row : Row} {index : Nat}

theorem read_layered {layers : Nat} {type : RowType} {datum : Datum} {cells : List Value}
    (has : row.HasAt index cells) (width : cells.length = type.width)
    (reads : type.read row index = .ok datum)
    (visible : 0 < layers → ∃ cell ∈ cells, cell ≠ .null) :
    (layered layers type).read row index = .ok (datum.layered layers) := by
  induction layers with
  | zero => exact reads
  | succ layers ih =>
      have someCell := visible (Nat.succ_pos layers)
      have notNull : cells.all Value.isNull = false := by
        obtain ⟨cell, member, filled⟩ := someCell
        rw [List.all_eq_false]
        exact ⟨cell, member, by simpa using filled⟩
      rw [layered, read, width_layered, ← width, has.allNull, notNull, ih fun _ => someCell]
      rfl

/-- Where every cell is NULL, the outermost layer is absent. -/
theorem read_absent {layers : Nat} {type : RowType}
    (has : row.HasAt index (List.replicate type.width .null)) (optional : 0 < layers) :
    (layered layers type).read row index = .ok .absent := by
  cases layers with
  | zero => cases optional
  | succ layers =>
      have null := has.allNull
      rw [List.length_replicate] at null
      rw [layered, read, width_layered, null]
      simp [Value.isNull, bind, Except.bind, pure, Except.pure]

end RowType

/-! ## Rows made of parts -/

/-- The part of one table in a row: a record of the table, or nothing. -/
structure Part where
  table : Table
  record? : Option (Record table)

namespace Part

/-- The cells of a part, all NULL where there is no record. -/
def cells (part : Part) : List Value :=
  match part.record? with
  | some record => record.cells
  | none => List.replicate part.table.columns.length .null

/-- What a part decodes to behind some layers of options. -/
def datum (layers : Nat) (part : Part) : Datum :=
  match part.record? with
  | some record => record.datum.layered layers
  | none => .absent

/-- A record is missing only behind a layer of options, and a record behind one has a cell
that is not NULL. -/
structure Fits (layers : Nat) (part : Part) : Prop where
  missing : part.record? = none → 0 < layers
  visible : ∀ record ∈ part.record?, 0 < layers → ∃ cell ∈ record.cells, cell ≠ .null

theorem length_cells (part : Part) : part.cells.length = part.table.columns.length := by
  rw [cells]
  split
  · exact Record.length_cells _
  · exact List.length_replicate

theorem Fits.read {part : Part} {layers : Nat} {row : Row} {index : Nat}
    (fits : part.Fits layers) (has : row.HasAt index part.cells) :
    (RowType.layered layers (.record part.table)).read row index = .ok (part.datum layers) := by
  obtain ⟨table, record?⟩ := part
  cases record? with
  | none => exact RowType.read_absent has (fits.missing rfl)
  | some record =>
      exact RowType.read_layered has record.length_cells (RowType.read_record record has)
        (fits.visible record rfl)

end Part

/-- One value, or several as a tuple. -/
def Datum.ofElements : List Datum → Datum
  | [datum] => datum
  | data => .tuple data

namespace RowType

/-- The element of each part, behind its layers of options. -/
def ofParts (layers : List Nat) (tables : List Table) : List RowType :=
  List.zipWith layered layers (tables.map .record)

variable {layers : List Nat} {parts : List Part}

theorem totalWidth_ofParts (fits : List.Forall₂ Part.Fits layers parts) :
    totalWidth (ofParts layers (parts.map Part.table)) = (parts.flatMap Part.cells).length := by
  induction fits with
  | nil => rfl
  | cons _ _ ih =>
      rw [ofParts] at ih ⊢
      simp only [List.map_cons, List.zipWith_cons_cons, totalWidth, width_layered, width, ih,
        List.flatMap_cons, List.length_append, Part.length_cells]

theorem readAll_ofParts {row : Row} {index : Nat}
    (fits : List.Forall₂ Part.Fits layers parts)
    (has : row.HasAt index (parts.flatMap Part.cells)) :
    readAll row (ofParts layers (parts.map Part.table)) index =
      .ok (List.zipWith Part.datum layers parts) := by
  induction fits generalizing index with
  | nil => rfl
  | @cons count part _ _ head _ ih =>
      rw [List.flatMap_cons] at has
      have next := ih has.right
      rw [ofParts] at next ⊢
      rw [List.map_cons, List.map_cons, List.zipWith_cons_cons, readAll, head.read has.left,
        width_layered, width, ← part.length_cells, next]
      rfl

theorem width_rowType (shape : Shape) : shape.rowType.width = totalWidth shape := by
  match shape with
  | [] | _ :: _ :: _ => rfl
  | [element] => rfl

/-- One element is read by itself, and several as a tuple. -/
theorem read_rowType {shape : Shape} {row : Row} {index : Nat} {data : List Datum}
    (reads : readAll row shape index = .ok data) :
    shape.rowType.read row index = .ok (.ofElements data) := by
  match shape with
  | [] =>
      cases reads
      rfl
  | [element] =>
      simp only [readAll, except_bind_ok, except_pure_ok] at reads
      obtain ⟨datum, read, _, made, rfl⟩ := reads
      cases made
      exact read
  | first :: second :: rest =>
      have several : ∃ one two others, data = one :: two :: others := by
        simp only [readAll, except_bind_ok, except_pure_ok] at reads
        obtain ⟨one, _, _, ⟨two, _, others, _, rfl⟩, rfl⟩ := reads
        exact ⟨one, two, others, rfl⟩
      obtain ⟨one, two, others, rfl⟩ := several
      rw [Shape.rowType, read, reads]
      · rfl
      · nofun

theorem decode_ofParts (fits : List.Forall₂ Part.Fits layers parts) :
    (Shape.rowType (ofParts layers (parts.map Part.table))).decode
        ⟨parts.flatMap Part.cells⟩ =
      .ok (.ofElements (List.zipWith Part.datum layers parts)) := by
  have whole : Row.HasAt ⟨parts.flatMap Part.cells⟩ 0 (parts.flatMap Part.cells) := .whole _
  rw [decode, width_rowType, totalWidth_ofParts fits, Row.width, if_pos rfl,
    read_rowType (readAll_ofParts fits whole)]

end RowType

end SqlSelect
