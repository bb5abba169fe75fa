import SqlSelect.Proofs.Rows.Datum
import SqlSelect.Proofs.Rows.Terminals
import SqlSelect.Sqlite.Store

/-!
# Values that come back from SQLite

A value that is handed to a driver comes back in a cell of its storage class, and is read from it
as it was, but for booleans, which come back as integers.  That is enough to decode what was
written.  Rows are fetched all or not at all: the first one that cannot be read, or that does not
decode, is what the whole fetch fails with.
-/

namespace SqlSelect

/-! ## Values -/

/-- The value that comes back for one that is handed over.  There is no storage class of
booleans. -/
def Value.returned : Value → Value
  | .bool value => .integer (if value then 1 else 0)
  | value => value

/-- Nothing is lost of the scalars that are handed over. -/
theorem Value.keeps_returned (cells : List Value) : Keeps Value.returned cells where
  null := rfl
  read scalar _ := by
    cases scalar with
    | boolean value => cases value <;> rfl
    | integer number => exact (Scalar.integer number).read_value
    | bigInt _ | double _ | text _ | blob _ => rfl

/-- The row in which a value comes back. -/
def RowType.returned (type : RowType) (datum : Datum) : Row :=
  ⟨(type.cells datum).map Value.returned⟩

/-- What comes back decodes as what was written. -/
theorem RowType.decode_returned {type : RowType} {datum : Datum} (admits : type.Admits datum) :
    type.decode (type.returned datum) = .ok datum.settle := by
  have width : (type.returned datum).width = type.width := by
    rw [Row.width, returned, List.length_map, length_cells admits]
  rw [decode, if_pos width]
  exact read_kept admits (Value.keeps_returned _) (.whole _)

theorem RowType.mapM_decode_returned {type : RowType} {data : List Datum}
    (admits : ∀ datum ∈ data, type.Admits datum) :
    (data.map type.returned).mapM type.decode = .ok (data.map Datum.settle) := by
  rw [mapM_eq_ok_iff, List.forall₂_map_left_iff, List.forall₂_map_right_iff, List.forall₂_same]
  exact fun datum member => decode_returned (admits datum member)

namespace Sqlite

/-! ## Cells -/

/-- A cell in which an argument comes back: in its own storage class and with its content, a
boolean as the integer 1 or 0, and what is missing as NULL.  Nothing is said of a NaN. -/
inductive Returned : Argument → RawCell → Prop where
  | missing {cell : RawCell} : cell.isNull = true → Returned .missing cell
  | bool {value : Bool} {cell : RawCell} :
      cell.isNull = false → cell.storage = "INTEGER" →
      cell.integer = .ok (if value then 1 else 0) → Returned (.bool value) cell
  | integer {value : Int64} {cell : RawCell} :
      cell.isNull = false → cell.storage = "INTEGER" → cell.integer = .ok value →
      Returned (.integer value) cell
  | float {value : Double} {cell : RawCell} :
      value.isNan = false → cell.isNull = false → cell.storage = "REAL" →
      cell.float = .ok value → Returned (.float value) cell
  | text {value : String} {cell : RawCell} :
      cell.isNull = false → cell.storage = "TEXT" → cell.text = .ok value →
      Returned (.text value) cell
  | blob {bytes : List UInt8} {cell : RawCell} :
      cell.isNull = false → cell.storage = "BLOB" → cell.blob = .ok bytes →
      Returned (.blob bytes) cell

/-- What comes back is read as the value that was handed over. -/
theorem Returned.value {value : Value} {cell : RawCell}
    (returned : Returned (.ofValue value) cell) : cell.value = .ok value.returned := by
  cases value with
  | null =>
      cases returned with
      | missing null =>
          rw [RawCell.value, if_pos null]
          rfl
  | bool value =>
      cases returned with
      | bool present storage content =>
          rw [RawCell.value, present, storage, content]
          rfl
  | integer number =>
      cases returned with
      | integer present storage content =>
          rw [RawCell.value, present, storage, content]
          rfl
  | float number =>
      cases returned with
      | float _ present storage content =>
          rw [RawCell.value, present, storage, content]
          rfl
  | text content =>
      cases returned with
      | text present storage content =>
          rw [RawCell.value, present, storage, content]
          rfl
  | blob bytes =>
      cases returned with
      | blob present storage content =>
          rw [RawCell.value, present, storage, content]
          rfl

/-! ## Rows -/

/-- A row in which some values come back is read as these values. -/
theorem toRow_of_returned {values : List Value} {cells : List RawCell}
    (returned : List.Forall₂ Returned (values.map Argument.ofValue) cells) :
    toRow cells = .ok ⟨values.map Value.returned⟩ := by
  have read : cells.mapM RawCell.value = .ok (values.map Value.returned) := by
    rw [mapM_eq_ok_iff, List.forall₂_map_right_iff]
    rw [List.forall₂_map_left_iff] at returned
    exact returned.flip.imp fun _ _ => Returned.value
  rw [toRow, read]
  rfl

/-- What a fetch comes to: the error of the driver, what all rows are mapped to in their order, or
the error of the first row that is not mapped. -/
inductive Fetched {α : Type} (mapper : Row → Except QueryError α) :
    Except String (List (List RawCell)) → Except QueryError (List α) → Prop where
  | failed (message : String) : Fetched mapper (.error message) (.error (.executor message))
  | rows {rows : List (List RawCell)} {results : List α} :
      List.Forall₂ (fun row result => (toRow row).bind mapper = .ok result) rows results →
      Fetched mapper (.ok rows) (.ok results)
  | unmapped {before after : List (List RawCell)} {row : List RawCell} {error : QueryError} :
      (∀ earlier ∈ before, ∃ result, (toRow earlier).bind mapper = .ok result) →
      (toRow row).bind mapper = .error error →
      Fetched mapper (.ok (before ++ row :: after)) (.error error)

/-- A fetch comes to all or to one error. -/
theorem fetch_eq_iff {α : Type} {reply : Except String (List (List RawCell))}
    {mapper : Row → Except QueryError α} {result : Except QueryError (List α)} :
    fetch reply mapper = result ↔ Fetched mapper reply result := by
  constructor
  · rintro rfl
    cases reply with
    | error message => exact .failed message
    | ok rows =>
        change Fetched mapper _ (rows.mapM fun row => (toRow row).bind mapper)
        cases fetched : rows.mapM fun row => (toRow row).bind mapper with
        | ok results => exact .rows (mapM_eq_ok_iff.mp fetched)
        | error error =>
            obtain ⟨before, row, after, rfl, fine, fails⟩ := mapM_eq_error_iff.mp fetched
            exact .unmapped fine fails
  · rintro (message | results | ⟨fine, fails⟩)
    · rfl
    · exact mapM_eq_ok_iff.mpr results
    · exact mapM_error_of_first fine fails

/-- Rows that can be read are mapped as they are read. -/
theorem fetch_of_toRow {α : Type} {cells : List (List RawCell)} {rows : List Row}
    (read : List.Forall₂ (fun cells row => toRow cells = .ok row) cells rows)
    (mapper : Row → Except QueryError α) : fetch (.ok cells) mapper = rows.mapM mapper := by
  change (cells.mapM fun cells => (toRow cells).bind mapper) = _
  induction read with
  | nil => rfl
  | cons first _ ih =>
      rw [List.mapM_cons, List.mapM_cons, first, ih]
      rfl

end Sqlite

end SqlSelect
