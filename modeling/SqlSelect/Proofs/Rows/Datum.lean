import SqlSelect.Proofs.Rows.Record

/-!
# Values written to cells

A value of a row type is written to as many cells as the type is wide, and an absent value as
NULL in each of them.  Reading cannot tell an absent value from one that is present but
written as NULL throughout, be it an absent value itself, a record of absent fields, or a
record without any column.  All else is read back as it was written.
-/

namespace SqlSelect

mutual

/-- A datum is a value of a row type. -/
inductive RowType.Admits : RowType → Datum → Prop where
  | scalar {type : DataType} {value : Scalar} :
      value.type = type → Admits (.scalar type) (.scalar value)
  | absent (inner : RowType) : Admits (.optional inner) .absent
  | present {inner : RowType} {datum : Datum} :
      Admits inner datum → Admits (.optional inner) (.present datum)
  /-- A field for each column, in their order. -/
  | record {table : Table} {fields : List Datum} :
      AdmitsAll (table.columns.map Column.rowType) fields →
      Admits (.record table) (.record table fields)
  | tuple {members : List RowType} {data : List Datum} :
      AdmitsAll members data → Admits (.tuple members) (.tuple data)

/-- Some data are values of some row types, one of each. -/
inductive RowType.AdmitsAll : List RowType → List Datum → Prop where
  | nil : AdmitsAll [] []
  | cons {type : RowType} {types : List RowType} {datum : Datum} {data : List Datum} :
      Admits type datum → AdmitsAll types data → AdmitsAll (type :: types) (datum :: data)

end

/-- The one cell of the value of a column. -/
def Datum.cell : Datum → Value
  | .scalar value => value.value
  | .present datum => datum.cell
  | .absent | .record _ _ | .tuple _ => .null

namespace RowType

mutual

/-- The cells that a value of a type is written to. -/
def cells : RowType → Datum → List Value
  | .scalar _, datum => [datum.cell]
  | .optional inner, .present datum => inner.cells datum
  | .optional inner, .absent => List.replicate inner.width .null
  | .record _, .record _ fields => fields.map Datum.cell
  | .tuple members, .tuple data => allCells members data
  | _, _ => []

/-- The cells of several values in a row. -/
def allCells : List RowType → List Datum → List Value
  | member :: members, datum :: data => member.cells datum ++ allCells members data
  | _, _ => []

end

end RowType

namespace Datum

mutual

/-- The value has NULL in every cell it is written to. -/
def isNull : Datum → Bool
  | .scalar _ => false
  | .absent => true
  | .present datum => datum.isNull
  | .record _ fields => allNull fields
  | .tuple data => allNull data

/-- All the values have NULL in every cell. -/
def allNull : List Datum → Bool
  | [] => true
  | datum :: rest => datum.isNull && allNull rest

end

mutual

/-- The value as it is read back: what is present but NULL in every cell becomes absent. -/
def settle : Datum → Datum
  | .scalar value => .scalar value
  | .absent => .absent
  | .present datum => if datum.isNull then .absent else .present datum.settle
  | .record table fields => .record table (settleAll fields)
  | .tuple data => .tuple (settleAll data)

/-- Several values as they are read back. -/
def settleAll : List Datum → List Datum
  | [] => []
  | datum :: rest => datum.settle :: settleAll rest

end

mutual

/-- Nothing within the value is present but NULL in every cell. -/
def isSettled : Datum → Bool
  | .scalar _ | .absent => true
  | .present datum => !datum.isNull && datum.isSettled
  | .record _ fields => allSettled fields
  | .tuple data => allSettled data

/-- All the values are settled. -/
def allSettled : List Datum → Bool
  | [] => true
  | datum :: rest => datum.isSettled && allSettled rest

end

mutual

/-- A settled value comes back, and no other one does. -/
theorem settle_eq_self_iff (datum : Datum) : datum.settle = datum ↔ datum.isSettled = true := by
  match datum with
  | .scalar _ | .absent => simp [settle, isSettled]
  | .present datum =>
      have inner := settle_eq_self_iff datum
      cases null : datum.isNull <;> simp [settle, isSettled, null, inner]
  | .record _ fields => simp [settle, isSettled, settleAll_eq_self_iff fields]
  | .tuple data => simp [settle, isSettled, settleAll_eq_self_iff data]

theorem settleAll_eq_self_iff (data : List Datum) :
    settleAll data = data ↔ allSettled data = true := by
  match data with
  | [] => simp [settleAll, allSettled]
  | datum :: rest =>
      simp [settleAll, allSettled, settle_eq_self_iff datum, settleAll_eq_self_iff rest]

end

end Datum

/-! ## Ways of keeping cells -/

namespace Value

/-- Some cells are kept in a way that leaves NULL alone, and from which every scalar among them
is read as it was. -/
structure Keeps (keep : Value → Value) (cells : List Value) : Prop where
  null : keep .null = .null
  read : ∀ scalar : Scalar, scalar.value ∈ cells →
    scalar.type.read (keep scalar.value) = .ok scalar

theorem null_or_scalar (value : Value) :
    value = .null ∨ ∃ scalar : Scalar, value = scalar.value := by
  cases value with
  | null => exact .inl rfl
  | bool value => exact .inr ⟨.boolean value, rfl⟩
  | integer value => exact .inr ⟨.bigInt value, rfl⟩
  | float value => exact .inr ⟨.double value, rfl⟩
  | text value => exact .inr ⟨.text value, rfl⟩
  | blob bytes => exact .inr ⟨.blob bytes, rfl⟩

namespace Keeps

variable {keep : Value → Value} {cells more : List Value}

theorem unchanged (cells : List Value) : Keeps (fun cell => cell) cells :=
  ⟨rfl, fun scalar _ => scalar.read_value⟩

theorem left (keeps : Keeps keep (cells ++ more)) : Keeps keep cells :=
  ⟨keeps.null, fun scalar member => keeps.read scalar (List.mem_append_left _ member)⟩

theorem right (keeps : Keeps keep (cells ++ more)) : Keeps keep more :=
  ⟨keeps.null, fun scalar member => keeps.read scalar (List.mem_append_right _ member)⟩

/-- NULL is read as no scalar, so that nothing else is kept as NULL. -/
theorem isNull (keeps : Keeps keep cells) {cell : Value} (member : cell ∈ cells) :
    (keep cell).isNull = cell.isNull := by
  rcases cell.null_or_scalar with rfl | ⟨scalar, rfl⟩
  · rw [keeps.null]
  · have read := keeps.read scalar member
    rw [scalar.isNull_value, Bool.eq_false_iff, ne_eq, isNull_iff]
    intro null
    rw [null] at read
    cases scalar <;> cases read

theorem all_isNull (keeps : Keeps keep cells) :
    (cells.map keep).all Value.isNull = cells.all Value.isNull := by
  rw [List.all_map, Bool.eq_iff_iff, List.all_eq_true, List.all_eq_true]
  exact forall₂_congr fun cell member => by rw [Function.comp, keeps.isNull member]

end Keeps

end Value

namespace RowType

theorem admits_optional_iff {inner : RowType} {datum : Datum} :
    (RowType.optional inner).Admits datum ↔
      datum = .absent ∨ ∃ value, inner.Admits value ∧ datum = .present value := by
  constructor
  · rintro (_ | _ | admits)
    · exact .inl rfl
    · exact .inr ⟨_, admits, rfl⟩
  · rintro (rfl | ⟨_, admits, rfl⟩)
    · exact .absent inner
    · exact .present admits

/-! ## Columns -/

@[simp] theorem width_column (column : Column) : column.rowType.width = 1 := by
  rw [Column.rowType]
  split <;> rfl

@[simp] theorem totalWidth_columns (columns : List Column) :
    totalWidth (columns.map Column.rowType) = columns.length := by
  induction columns with
  | nil => rfl
  | cons column rest ih => simp [totalWidth, ih, Nat.add_comm]

/-- The column is read by its type. -/
theorem readColumn_eq (row : Row) (column : Column) (index : Nat) :
    readColumn row column index = column.rowType.read row index := by
  rw [readColumn, Column.rowType]
  split
  case isTrue => simp only [read, width, bind_assoc, pure_bind]
  case isFalse => rfl

/-- A record is read as a tuple of its columns. -/
theorem readColumns_eq (row : Row) (columns : List Column) (index : Nat) :
    readColumns row columns index = readAll row (columns.map Column.rowType) index := by
  induction columns generalizing index with
  | nil => rfl
  | cons column rest ih =>
      rw [List.map_cons, readColumns, readAll, readColumn_eq, width_column, ih]

/-- The value of a column takes one cell. -/
theorem cells_column {column : Column} {datum : Datum} (admits : column.rowType.Admits datum) :
    column.rowType.cells datum = [datum.cell] := by
  rw [Column.rowType] at admits ⊢
  split
  case isFalse => rfl
  case isTrue optional =>
    rw [if_pos optional] at admits
    rcases admits_optional_iff.mp admits with rfl | ⟨value, _, rfl⟩ <;> rfl

/-- The cells of a record are those of its columns. -/
theorem allCells_columns {columns : List Column} {fields : List Datum}
    (admits : AdmitsAll (columns.map Column.rowType) fields) :
    allCells (columns.map Column.rowType) fields = fields.map Datum.cell := by
  induction columns generalizing fields with
  | nil =>
      cases admits
      rfl
  | cons column rest ih =>
      cases admits with
      | cons first others => rw [List.map_cons, allCells, cells_column first, ih others]; rfl

/-! ## Widths and NULL cells -/

mutual

/-- A value is written to as many cells as its type is wide. -/
theorem length_cells {type : RowType} {datum : Datum} (admits : type.Admits datum) :
    (type.cells datum).length = type.width := by
  match admits with
  | .scalar _ => rfl
  | .absent inner => simp [cells, width]
  | .present admits => rw [cells, width, length_cells admits]
  | .record admits =>
      have fields := length_allCells admits
      rwa [allCells_columns admits, totalWidth_columns] at fields
  | .tuple admits => exact length_allCells admits

theorem length_allCells {types : List RowType} {data : List Datum}
    (admits : AdmitsAll types data) : (allCells types data).length = totalWidth types := by
  match admits with
  | .nil => rfl
  | .cons first others =>
      rw [allCells, List.length_append, length_cells first, length_allCells others, totalWidth]

end

mutual

theorem all_isNull_cells {type : RowType} {datum : Datum} (admits : type.Admits datum) :
    (type.cells datum).all Value.isNull = datum.isNull := by
  match admits with
  | .scalar _ => simp [cells, Datum.cell, Scalar.isNull_value, Datum.isNull]
  | .absent inner => simp [cells, Datum.isNull, Value.isNull]
  | .present admits => rw [cells, Datum.isNull, all_isNull_cells admits]
  | .record admits =>
      have fields := all_isNull_allCells admits
      rwa [allCells_columns admits] at fields
  | .tuple admits => exact all_isNull_allCells admits

theorem all_isNull_allCells {types : List RowType} {data : List Datum}
    (admits : AdmitsAll types data) :
    (allCells types data).all Value.isNull = Datum.allNull data := by
  match admits with
  | .nil => rfl
  | .cons first others =>
      rw [allCells, List.all_append, all_isNull_cells first, all_isNull_allCells others,
        Datum.allNull]

end

/-! ## Reading back -/

variable {row : Row} {keep : Value → Value}

mutual

/-- Wherever a value stands in a row, it is read back, also from cells that are kept in another
way. -/
theorem read_kept {type : RowType} {datum : Datum} {index : Nat} (admits : type.Admits datum)
    (keeps : Value.Keeps keep (type.cells datum))
    (has : row.HasAt index ((type.cells datum).map keep)) :
    type.read row index = .ok datum.settle := by
  match admits with
  | .scalar typed =>
      subst typed
      rw [read, readScalar, has.get]
      simp [bind, Except.bind, Datum.cell, keeps.read _ List.mem_cons_self, Except.mapError,
        pure, Except.pure, Datum.settle]
  | .absent inner =>
      have null := has.allNull
      rw [List.length_map, keeps.all_isNull, length_cells (.absent inner),
        all_isNull_cells (.absent inner)] at null
      rw [read]
      rw [width] at null
      rw [null]
      rfl
  | @RowType.Admits.present inner datum admits =>
      have null := has.allNull
      rw [List.length_map, keeps.all_isNull, cells, length_cells admits,
        all_isNull_cells admits] at null
      rw [read, null, Datum.settle]
      cases datum.isNull with
      | true => rfl
      | false =>
          rw [read_kept admits keeps has]
          rfl
  | .record admits =>
      rw [cells, ← allCells_columns admits] at keeps has
      rw [read, readColumns_eq, readAll_kept admits keeps has]
      rfl
  | .tuple admits =>
      rw [read, readAll_kept admits keeps has]
      rfl

theorem readAll_kept {types : List RowType} {data : List Datum} {index : Nat}
    (admits : AdmitsAll types data) (keeps : Value.Keeps keep (allCells types data))
    (has : row.HasAt index ((allCells types data).map keep)) :
    readAll row types index = .ok (Datum.settleAll data) := by
  match admits with
  | .nil => rfl
  | .cons first others =>
      rw [allCells, List.map_append] at has
      have behind := has.right
      rw [List.length_map, length_cells first] at behind
      rw [readAll, read_kept first keeps.left has.left, readAll_kept others keeps.right behind]
      rfl

end

/-- Wherever a value stands in a row, it is read back. -/
theorem read_cells {type : RowType} {datum : Datum} {index : Nat} (admits : type.Admits datum)
    (has : row.HasAt index (type.cells datum)) :
    type.read row index = .ok datum.settle :=
  read_kept admits (.unchanged _) (by simpa using has)

end RowType

end SqlSelect
