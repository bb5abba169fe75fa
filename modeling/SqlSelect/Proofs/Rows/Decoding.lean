import SqlSelect.Proofs.Rows.Datum

/-!
# Decoding rows

A row of the width of its type decodes, unless a cell is refused by the data type it is read
as; the first such cell from the left decides the error.  The cells of an absent value are
read as nothing.  A row of any other width is refused as a whole.
-/

namespace SqlSelect

/-! ## Refused cells -/

namespace DataType

/-- The data type is read from cells of a storage class. -/
def accepts : DataType → Kind → Bool
  | .boolean, .bool | .boolean, .integer | .integer, .integer | .bigInt, .integer
  | .double, .float | .double, .integer | .text, .text | .blob, .blob => true
  | _, _ => false

/-- A cell is refused for its storage class, or for an integer that is too large for its
type. -/
inductive Refuses (type : DataType) : Value → RowFault → Prop where
  | mismatch {cell : Value} :
      type.accepts cell.kind = false → Refuses type cell (.mismatch type.kind cell.kind)
  | overflow {number : Int64} :
      type = .integer →
      ¬ (Int32.minValue.toInt ≤ number.toInt ∧ number.toInt ≤ Int32.maxValue.toInt) →
      Refuses type (.integer number) (.overflow number)

theorem narrowed_iff (number : Int64) :
    number.toInt32.toInt64 = number ↔
      Int32.minValue.toInt ≤ number.toInt ∧ number.toInt ≤ Int32.maxValue.toInt := by
  rw [← Int64.toInt_inj, Int32.toInt_toInt64, Int64.toInt_toInt32, Int.bmod,
    Int32.toInt_minValue, Int32.toInt_maxValue]
  omega

theorem narrow_eq_error_iff {number : Int64} {fault : RowFault} :
    narrow number = .error fault ↔
      ¬ (Int32.minValue.toInt ≤ number.toInt ∧ number.toInt ≤ Int32.maxValue.toInt) ∧
        .overflow number = fault := by
  rw [narrow, ← narrowed_iff]
  split
  case isTrue fits => simp [fits]
  case isFalse outside => simp [outside]

theorem read_of_not_accepts {type : DataType} {cell : Value}
    (refused : type.accepts cell.kind = false) :
    type.read cell = .error (.mismatch type.kind cell.kind) := by
  cases type <;> cases cell <;> first | rfl | cases refused

theorem read_of_accepts {type : DataType} {cell : Value}
    (accepted : type.accepts cell.kind = true) :
    (∃ scalar, type.read cell = .ok scalar) ∨
      type = .integer ∧ ∃ number, cell = .integer number := by
  cases type <;> cases cell <;>
    first | exact .inl ⟨_, rfl⟩ | exact .inr ⟨rfl, _, rfl⟩ | cases accepted

/-- Reading fails just on the cells that are refused. -/
theorem read_eq_error_iff {type : DataType} {cell : Value} {fault : RowFault} :
    type.read cell = .error fault ↔ type.Refuses cell fault := by
  constructor
  · intro fails
    cases accepted : type.accepts cell.kind with
    | false =>
        rw [read_of_not_accepts accepted] at fails
        cases fails
        exact .mismatch accepted
    | true =>
        rcases read_of_accepts accepted with ⟨scalar, reads⟩ | ⟨rfl, number, rfl⟩
        · rw [reads] at fails
          cases fails
        · obtain ⟨outside, rfl⟩ := narrow_eq_error_iff.mp fails
          exact .overflow rfl outside
  · rintro (refused | ⟨rfl, outside⟩)
    · exact read_of_not_accepts refused
    · exact narrow_eq_error_iff.mpr ⟨outside, rfl⟩

end DataType

/-! ## Demands on the cells of a row -/

/-- A cell, and the data type it is read as.  As part of an absent value it is read as none. -/
structure Demand where
  type? : Option DataType
  cell : Value

namespace Demand

/-- The fault of a cell that is refused. -/
def fault? (demand : Demand) : Option RowFault :=
  demand.type?.bind fun type =>
    match type.read demand.cell with
    | .ok _ => none
    | .error fault => some fault

/-- The cell is refused by the data type it is read as. -/
def Refused (demand : Demand) (fault : RowFault) : Prop :=
  ∃ type, demand.type? = some type ∧ type.Refuses demand.cell fault

theorem fault?_eq_some_iff {demand : Demand} {fault : RowFault} :
    demand.fault? = some fault ↔ demand.Refused fault := by
  rw [fault?, Option.bind_eq_some_iff]
  refine exists_congr fun type => and_congr_right fun _ => ?_
  rw [← DataType.read_eq_error_iff]
  split <;> simp_all

/-- The error of the first cell from the left that is refused. -/
def firstError? (demands : List Demand) : Option QueryError :=
  (demands.findSome? fault?).map .rowMapping

theorem firstError?_append (left right : List Demand) :
    firstError? (left ++ right) = (firstError? left).or (firstError? right) := by
  rw [firstError?, List.findSome?_append, firstError?]
  cases left.findSome? fault? <;> rfl

theorem firstError?_unread (cells : List Value) :
    firstError? (cells.map fun cell => ⟨none, cell⟩) = none := by
  have unread : (cells.map fun cell => (⟨none, cell⟩ : Demand)).findSome? fault? = none := by
    simp [fault?]
  rw [firstError?, unread, Option.map_none]

theorem firstError?_eq_some_iff {demands : List Demand} {error : QueryError} :
    firstError? demands = some error ↔ ∃ before demand after fault,
      demands = before ++ demand :: after ∧
        (∀ earlier ∈ before, ∀ fault, ¬ earlier.Refused fault) ∧
        demand.Refused fault ∧ error = .rowMapping fault := by
  simp only [← fault?_eq_some_iff, ← Option.eq_none_iff_forall_ne_some, firstError?,
    Option.map_eq_some_iff, List.findSome?_eq_some_iff]
  constructor
  · rintro ⟨fault, ⟨before, demand, after, split, refused, earlier⟩, rfl⟩
    exact ⟨before, demand, after, fault, split, earlier, refused, rfl⟩
  · rintro ⟨before, demand, after, fault, split, earlier, refused, rfl⟩
    exact ⟨fault, ⟨before, demand, after, split, refused, earlier⟩, rfl⟩

end Demand

/-- What is demanded of the cell of a column. -/
def Column.demand (column : Column) (cell : Value) : Demand :=
  ⟨if column.optional && cell.isNull then none else some column.type, cell⟩

namespace RowType

mutual

/-- What is demanded of the cells of a type, from left to right. -/
def demands : RowType → List Value → List Demand
  | .scalar type, cells => cells.map fun cell => ⟨some type, cell⟩
  | .optional inner, cells =>
    if cells.all Value.isNull then cells.map fun cell => ⟨none, cell⟩ else inner.demands cells
  | .record table, cells => List.zipWith Column.demand table.columns cells
  | .tuple members, cells => allDemands members cells

/-- What is demanded of the cells of several types in a row. -/
def allDemands : List RowType → List Value → List Demand
  | [], _ => []
  | member :: rest, cells =>
    member.demands (cells.take member.width) ++ allDemands rest (cells.drop member.width)

end

mutual

/-- Something is demanded of each cell, in the order of the row. -/
theorem map_cell_demands (type : RowType) {cells : List Value}
    (length : cells.length = type.width) : (type.demands cells).map Demand.cell = cells := by
  match type with
  | .scalar _ => simp [demands, Function.comp_def]
  | .optional inner =>
      have inside := map_cell_demands inner length
      rw [demands]
      split
      · simp [Function.comp_def]
      · exact inside
  | .record table =>
      have second : (table.columns.zip cells).map Prod.snd = cells :=
        List.map_snd_zip (Nat.le_of_eq length)
      rw [List.zip, List.map_zipWith] at second
      rw [demands, List.map_zipWith]
      exact second
  | .tuple members => exact map_cell_allDemands members length

theorem map_cell_allDemands (types : List RowType) {cells : List Value}
    (length : cells.length = totalWidth types) :
    (allDemands types cells).map Demand.cell = cells := by
  match types with
  | [] => exact (List.length_eq_zero_iff.mp length).symm
  | type :: rest =>
      rw [totalWidth] at length
      have taken : (cells.take type.width).length = type.width := by simp; omega
      have dropped : (cells.drop type.width).length = totalWidth rest := by simp; omega
      have first := map_cell_demands type taken
      have others := map_cell_allDemands rest dropped
      rw [allDemands, List.map_append, first, others, List.take_append_drop]

end

end RowType

/-! ## The first fault -/

section Outcomes

variable {α β γ ε : Type}

/-- The error of an outcome. -/
def failure? : Except ε α → Option ε
  | .ok _ => none
  | .error error => some error

theorem failure?_eq_some_iff {outcome : Except ε α} {error : ε} :
    failure? outcome = some error ↔ outcome = .error error := by
  cases outcome <;> simp [failure?]

theorem failure?_map (outcome : Except ε α) (make : α → β) :
    failure? (do return make (← outcome)) = failure? outcome := by
  cases outcome <;> rfl

theorem failure?_map₂ (first : Except ε α) (second : Except ε β) (make : α → β → γ) :
    failure? (do return make (← first) (← second)) = (failure? first).or (failure? second) := by
  cases first <;> cases second <;> rfl

end Outcomes

namespace RowType

variable {row : Row} {cell : Value} {cells : List Value}

theorem failure?_readScalar (type : DataType) {index : Nat} (has : row.HasAt index [cell]) :
    failure? (readScalar row type index) = Demand.firstError? [⟨some type, cell⟩] := by
  rw [readScalar, has.get]
  cases reads : type.read cell <;>
    simp [bind, Except.bind, reads, Except.mapError, failure?, Demand.firstError?, Demand.fault?]

theorem failure?_readColumn (column : Column) {index : Nat} (has : row.HasAt index [cell]) :
    failure? (readColumn row column index) = Demand.firstError? [column.demand cell] := by
  have alone : row.allNull index 1 = .ok cell.isNull := by simpa using has.allNull
  have scalar := failure?_readScalar column.type has
  rw [readColumn, Column.demand]
  cases column.optional with
  | false =>
      rw [if_neg Bool.false_ne_true, failure?_map, scalar]
      rfl
  | true =>
      rw [if_pos rfl, alone]
      cases null : cell.isNull with
      | false =>
          exact (failure?_map (readScalar row column.type index) _).trans scalar
      | true => rfl

theorem failure?_readColumns (columns : List Column) {index : Nat}
    (has : row.HasAt index cells) (length : cells.length = columns.length) :
    failure? (readColumns row columns index) =
      Demand.firstError? (List.zipWith Column.demand columns cells) := by
  induction columns generalizing index cells with
  | nil => rfl
  | cons column rest ih =>
      cases cells with
      | nil => cases length
      | cons cell others =>
          have first := failure?_readColumn column has.head
          have behind := ih has.tail (Nat.succ.inj length)
          rw [readColumns, failure?_map₂, first, behind, ← Demand.firstError?_append]
          rfl

mutual

/-- Reading fails with the error of the first cell that is refused. -/
theorem failure?_read (type : RowType) {index : Nat} {cells : List Value}
    (has : row.HasAt index cells) (length : cells.length = type.width) :
    failure? (type.read row index) = Demand.firstError? (type.demands cells) := by
  match type with
  | .scalar type =>
      obtain ⟨cell, rfl⟩ := List.length_eq_one_iff.mp length
      rw [read, failure?_map, failure?_readScalar type has]
      rfl
  | .optional inner =>
      have null := has.allNull
      rw [length] at null
      have inside := failure?_read inner has length
      rw [read]
      rw [width] at null
      rw [null, demands]
      cases cells.all Value.isNull with
      | true => exact (Demand.firstError?_unread cells).symm
      | false =>
          exact (failure?_map (inner.read row index) _).trans inside
  | .record table =>
      rw [read, failure?_map, failure?_readColumns table.columns has length]
      rfl
  | .tuple members =>
      rw [read, failure?_map, failure?_readAll members has length]
      rfl

theorem failure?_readAll (types : List RowType) {index : Nat} {cells : List Value}
    (has : row.HasAt index cells) (length : cells.length = totalWidth types) :
    failure? (readAll row types index) = Demand.firstError? (allDemands types cells) := by
  match types with
  | [] => rfl
  | type :: rest =>
      rw [totalWidth] at length
      have taken : (cells.take type.width).length = type.width := by simp; omega
      have dropped : (cells.drop type.width).length = totalWidth rest := by simp; omega
      rw [← List.take_append_drop type.width cells] at has
      have behind := has.right
      rw [taken] at behind
      have first := failure?_read type has.left taken
      have others := failure?_readAll rest behind dropped
      rw [readAll, failure?_map₂, first, others, allDemands, Demand.firstError?_append]

end

/-- How the values of a type are written to rows, and what rows decode to. -/
structure Recovers (type : RowType) : Prop where
  length_cells : ∀ datum, type.Admits datum → (type.cells datum).length = type.width
  isNull_iff : ∀ datum, type.Admits datum →
    (datum.isNull = true ↔ ∀ cell ∈ type.cells datum, cell = .null)
  /-- The row of a value decodes to that value, but for what is present in it with nothing but
  NULL in its cells, which becomes absent. -/
  reads_back : ∀ datum, type.Admits datum → type.decode ⟨type.cells datum⟩ = .ok datum.settle
  unchanged_iff : ∀ datum : Datum, datum.settle = datum ↔ datum.isSettled = true
  wrong_width : ∀ row : Row, row.width ≠ type.width →
    type.decode row = .error (.rowMapping (.wrongWidth type.width row.width))
  /-- In a row of the right width, something is demanded of each cell in the order of the row. -/
  demanded : ∀ row : Row, row.width = type.width →
    (type.demands row.cells).map Demand.cell = row.cells
  /-- A row of the right width fails just if one of its cells is refused, with the fault of the
  first one. -/
  fails_iff : ∀ (row : Row) (error : QueryError), row.width = type.width →
    (type.decode row = .error error ↔ ∃ before demand after fault,
      type.demands row.cells = before ++ demand :: after ∧
        (∀ earlier ∈ before, ∀ fault, ¬ earlier.Refused fault) ∧
        demand.Refused fault ∧ error = .rowMapping fault)

/-- Decoding undoes writing for every type of rows, and what else fails to decode fails at the
first cell that is refused. -/
theorem recovers_values (type : RowType) : type.Recovers := by
  constructor
  case length_cells => exact fun _ => length_cells
  case isNull_iff =>
    intro datum admits
    rw [← all_isNull_cells admits, List.all_eq_true]
    simp only [Value.isNull_iff]
  case reads_back =>
    intro datum admits
    have width : Row.width ⟨type.cells datum⟩ = type.width := length_cells admits
    rw [decode, if_pos width, read_cells admits (.whole _)]
  case unchanged_iff => exact Datum.settle_eq_self_iff
  case wrong_width =>
    intro row other
    rw [decode, if_neg other]
  case demanded => exact fun _ width => map_cell_demands type width
  case fails_iff =>
    intro row error width
    rw [decode, if_pos width, ← failure?_eq_some_iff, failure?_read type (.whole row) width,
      Demand.firstError?_eq_some_iff]

/-- An optional record without columns takes no cells, so that it is never read as present. -/
example (table : Table) (empty : table.columns = []) :
    (RowType.optional (.record table)).decode ⟨[]⟩ = .ok .absent := by
  simp [decode, width, empty, Row.width, read, Row.allNull, bind, Except.bind, pure, Except.pure]

end RowType

end SqlSelect
