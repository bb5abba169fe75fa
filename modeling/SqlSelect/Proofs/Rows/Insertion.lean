import SqlSelect.Declaration.Expansion
import SqlSelect.Proofs.Rows.Conversion

/-!
# Rows that are inserted and listed

Rows that are inserted one after another are listed in the same order, each as it was written, but
for what is present in a field with nothing in it, which is listed as absent.  Only a field whose
type is an option of an option has such values.
-/

namespace SqlSelect

/-! ## Fields of records -/

/-- The type of a field: a data type, with any number of options around it. -/
inductive RowType.IsField : RowType → Prop where
  | scalar (type : DataType) : IsField (.scalar type)
  | optional {inner : RowType} : IsField inner → IsField (.optional inner)

/-- A data type, with one option around it or none. -/
inductive RowType.IsPlain : RowType → Prop where
  | scalar (type : DataType) : IsPlain (.scalar type)
  | optional (type : DataType) : IsPlain (.optional (.scalar type))

/-- A value that is present, with nothing in it. -/
inductive Datum.Hollow : Datum → Prop where
  | absent : Hollow (.present .absent)
  | present {datum : Datum} : Hollow datum → Hollow (.present datum)

namespace RowType

theorem width_of_isField {type : RowType} (field : type.IsField) : type.width = 1 := by
  induction field with
  | scalar _ => rfl
  | optional _ ih => exact ih

theorem totalWidth_of_isField {types : List RowType} (fields : ∀ type ∈ types, type.IsField) :
    totalWidth types = types.length := by
  induction types with
  | nil => rfl
  | cons type rest ih =>
      rw [totalWidth, width_of_isField (fields type List.mem_cons_self),
        ih fun other member => fields other (List.mem_cons_of_mem _ member), List.length_cons,
        Nat.add_comm]

/-- The fields of a definition have such types. -/
theorem isField_of_rowType? {type : FieldType} {read : RowType}
    (known : type.rowType? = some read) : read.IsField := by
  unfold FieldType.rowType? at known
  split at known
  · obtain ⟨inner, found, rfl⟩ := Option.map_eq_some_iff.mp known
    exact .optional (isField_of_rowType? found)
  · obtain ⟨data, _, rfl⟩ := Option.map_eq_some_iff.mp known
    exact .scalar data

theorem isField_of_rowTypes? {definition : TableDefinition} {types : List RowType}
    (known : definition.rowTypes? = some types) : ∀ type ∈ types, type.IsField := by
  rw [TableDefinition.rowTypes?] at known
  generalize definition.fieldReaders = readers at known
  induction readers generalizing types with
  | nil =>
      cases known
      nofun
  | cons reader rest ih =>
      rw [List.mapM_cons] at known
      obtain ⟨first, found, known⟩ := Option.bind_eq_some_iff.mp known
      obtain ⟨others, found', ⟨⟩⟩ := Option.bind_eq_some_iff.mp known
      exact List.forall_mem_cons.mpr ⟨isField_of_rowType? found, ih found'⟩

theorem isPlain_column (column : Column) : column.rowType.IsPlain := by
  rw [Column.rowType]
  split
  · exact .optional _
  · exact .scalar _

/-- The value of a field has NULL in its cell if it is absent, or hollow. -/
theorem isNull_iff_hollow {type : RowType} {datum : Datum} (field : type.IsField)
    (admits : type.Admits datum) : datum.isNull = true ↔ datum = .absent ∨ datum.Hollow := by
  induction field generalizing datum with
  | scalar type =>
      cases admits
      exact ⟨nofun, nofun⟩
  | optional _ ih =>
      rcases admits_optional_iff.mp admits with rfl | ⟨value, inside, rfl⟩
      · exact ⟨fun _ => .inl rfl, fun _ => rfl⟩
      · rw [Datum.isNull, ih inside]
        constructor
        · rintro (rfl | hollow)
          · exact .inr .absent
          · exact .inr (.present hollow)
        · rintro (other | hollow)
          · cases other
          · cases hollow with
            | absent => exact .inl rfl
            | present hollow => exact .inr hollow

/-- The value of a field comes back as it is, unless it is hollow. -/
theorem settle_eq_self_iff_hollow {type : RowType} {datum : Datum} (field : type.IsField)
    (admits : type.Admits datum) : datum.settle = datum ↔ ¬ datum.Hollow := by
  -- Fields have no records in them, so that only what is present can be NULL in its cell.
  rw [Datum.settle_eq_self_iff]
  induction field generalizing datum with
  | scalar type =>
      cases admits
      exact ⟨fun _ => nofun, fun _ => rfl⟩
  | optional field ih =>
      rcases admits_optional_iff.mp admits with rfl | ⟨value, inside, rfl⟩
      · exact ⟨fun _ => nofun, fun _ => rfl⟩
      · rw [Datum.isSettled, Bool.and_eq_true, Bool.not_eq_true', Bool.eq_false_iff, ne_eq,
          isNull_iff_hollow field inside, ih inside]
        constructor
        · rintro ⟨present, -⟩ (_ | hollow)
          · exact present (.inl rfl)
          · exact present (.inr hollow)
        · intro solid
          refine ⟨?_, fun hollow => solid (.present hollow)⟩
          rintro (rfl | hollow)
          · exact solid .absent
          · exact solid (.present hollow)

theorem settleAll_eq_self_iff_hollow {types : List RowType} {row : List Datum}
    (fields : ∀ type ∈ types, type.IsField) (admits : AdmitsAll types row) :
    Datum.settleAll row = row ↔ ∀ field ∈ row, ¬ field.Hollow := by
  induction types generalizing row with
  | nil =>
      cases admits
      simp [Datum.settleAll]
  | cons type rest ih =>
      cases admits with
      | cons first others =>
          have head := settle_eq_self_iff_hollow (fields type List.mem_cons_self) first
          have tail := ih (fun other member => fields other (List.mem_cons_of_mem _ member)) others
          rw [Datum.settleAll, List.cons.injEq, head, tail, List.forall_mem_cons]

theorem IsPlain.isField {type : RowType} (plain : type.IsPlain) : type.IsField := by
  cases plain with
  | scalar type => exact .scalar type
  | optional type => exact .optional (.scalar type)

theorem not_hollow_of_isPlain {type : RowType} {datum : Datum} (plain : type.IsPlain)
    (admits : type.Admits datum) : ¬ datum.Hollow := by
  cases plain with
  | scalar type =>
      cases admits
      nofun
  | optional type =>
      rcases admits_optional_iff.mp admits with rfl | ⟨value, ⟨⟩, rfl⟩
      · nofun
      · rintro (_ | ⟨⟨⟩⟩)

/-- The fields of a table come back as they are. -/
theorem settleAll_of_columns {columns : List Column} {row : List Datum}
    (admits : AdmitsAll (columns.map Column.rowType) row) : Datum.settleAll row = row := by
  induction columns generalizing row with
  | nil =>
      cases admits
      rfl
  | cons column rest ih =>
      cases admits with
      | cons first others =>
          have plain := isPlain_column column
          have settled := (settle_eq_self_iff_hollow plain.isField first).mpr
            (not_hollow_of_isPlain plain first)
          rw [Datum.settleAll, settled, ih others]

end RowType

/-! ## The statement that lists a table -/

section Words

variable {database : Database}

theorem Lexeme.allPieces_words (dialect : Dialect) (words : List String) :
    allPieces dialect (words.map .word) = words.map .text := by
  induction words with
  | nil => rfl
  | cons word rest ih => rw [List.map_cons, allPieces_cons, ih]; rfl

theorem Lexeme.declareAll_words (dialect : Dialect) (words : List String) :
    declareAll dialect [] (words.map .word) = .ok [] := by
  induction words with
  | nil => rfl
  | cons word rest ih => exact ih

namespace Piece

theorem check_texts (texts : List String) : check (texts.map .text) = .ok () := by
  induction texts with
  | nil => rfl
  | cons text rest ih => exact ih

theorem spell_texts (dialect : Dialect) (texts : List String) :
    spell dialect 0 (texts.map .text) = texts := by
  induction texts with
  | nil => rfl
  | cons text rest ih => rw [List.map_cons, spell, ih]

theorem arguments_texts (texts : List String) : arguments (texts.map .text) = [] := by
  induction texts with
  | nil => rfl
  | cons text rest ih => exact ih

end Piece

/-- What is made of words alone is the text of these words, without arguments. -/
theorem Query.prepare_of_words {query : Query} {words : List String}
    (written : query.lexemes database = words.map .word) :
    query.prepare database = .ok ⟨String.join words, []⟩ := by
  rw [prepare, written, Lexeme.allPieces_words, Piece.check_texts, Lexeme.declareAll_words]
  simp only [bind, Except.bind, pure, Except.pure, Piece.hoisted, Piece.spell_texts,
    Piece.arguments_texts]

end Words

namespace Sqlite

/-- The statement that lists the rows of a table. -/
def wholeTable (handle : Alias) : Prepared where
  text := String.join (["select ", handle.displayName, ".*", " from ",
    database.tableName handle.table] ++ (handle.name.map fun name => [" as ", name]).getD [])
  arguments := []

/-- Any table can be listed. -/
theorem prepare_wholeTable (handle : Alias) :
    (database.select (.ofTable handle)).prepare = .ok (wholeTable handle) := by
  have written : (Query.ofSource (.ofTable handle)).lexemes database =
      .word "select " :: (Query.everyColumn [handle] ++
        .word " from " :: (Source.ofTable handle).lexemes database) := by
    simp [Query.ofSource, Query.lexemes, Query.joinLexemes, Query.operandLexemes,
      Query.condition, Query.clause, Expr.optionLexemes, Expr.listLexemes, Expr.orderLexemes,
      Query.paginationLexemes, Query.lockingLexemes, Source.ofTable]
  have words : (Query.ofSource (.ofTable handle)).lexemes database =
      (["select ", handle.displayName, ".*", " from ", database.tableName handle.table] ++
        (handle.name.map fun name => [" as ", name]).getD []).map .word := by
    rw [written, Source.ofTable, Source.lexemes, Source.nameLexemes]
    cases handle.name <;> rfl
  have finished : (database.select (.ofTable handle)).result =
      .ok (Query.ofSource (.ofTable handle)) := rfl
  exact except_bind_ok.mpr ⟨_, finished, Query.prepare_of_words words⟩

/-! ## Insertions -/

/-- What a row of fields may be: a value for each of them, none of which is a NaN. -/
structure Storable (types : List RowType) (row : List Datum) : Prop where
  admits : RowType.AdmitsAll types row
  numbers : ∀ number, .float number ∈ RowType.allCells types row → number.isNan = false

namespace Driver

variable {State : Type}

/-- Insert some rows, one after another. -/
def insertAll (driver : Driver State) (insertion : String) (state : State) :
    List (List Value) → Except QueryError State
  | [] => .ok state
  | cells :: rest =>
    match driver.execute ⟨insertion, cells⟩ state with
    | (.ok _, next) => driver.insertAll insertion next rest
    | (.error error, _) => .error error

/-- What a driver is relied on for: behind the rows that a selection replies with, there is one
more for every insertion, in which the arguments have come back. -/
structure Serves (driver : Driver State) (insertion : String) (selection : Prepared)
    (width : Nat) : Prop where
  inserts : ∀ (state : State) (rows : List (List RawCell)) (arguments : List Argument),
    driver.reply state selection = .ok rows → arguments.length = width →
    (∀ number, .float number ∈ arguments → number.isNan = false) →
    ∃ next row, driver.perform insertion arguments state = (.ok 1, next) ∧
      List.Forall₂ Returned arguments row ∧ driver.reply next selection = .ok (rows ++ [row])

namespace Serves

variable {driver : Driver State} {insertion : String} {selection : Prepared} {width : Nat}
  {state : State} {rows : List (List RawCell)}

/-- One insertion adds one row. -/
theorem execute (serves : driver.Serves insertion selection width)
    (starts : driver.reply state selection = .ok rows) {cells : List Value}
    (length : cells.length = width)
    (numbers : ∀ number, .float number ∈ cells → number.isNan = false) :
    ∃ next row, driver.execute ⟨insertion, cells⟩ state = (.ok 1, next) ∧
      toRow row = .ok ⟨cells.map Value.returned⟩ ∧
      driver.reply next selection = .ok (rows ++ [row]) := by
  have numbers : ∀ number, .float number ∈ cells.map Argument.ofValue →
      number.isNan = false := by
    intro number member
    obtain ⟨cell, known, same⟩ := List.mem_map.mp member
    cases cell with
    | float value =>
        cases same
        exact numbers number known
    | _ => cases same
  obtain ⟨next, row, performed, returned, replies⟩ :=
    serves.inserts state rows (cells.map Argument.ofValue) starts (by simpa using length) numbers
  refine ⟨next, row, ?_, toRow_of_returned returned, replies⟩
  rw [Driver.execute, performed]
  rfl

/-- Many insertions add as many rows, in their order. -/
theorem insertAll (serves : driver.Serves insertion selection width)
    (starts : driver.reply state selection = .ok rows) {written : List (List Value)}
    (lengths : ∀ cells ∈ written, cells.length = width)
    (numbers : ∀ cells ∈ written, ∀ number, .float number ∈ cells → number.isNan = false) :
    ∃ final more, driver.insertAll insertion state written = .ok final ∧
      List.Forall₂ (fun row read => toRow row = .ok read) more
        (written.map fun cells => ⟨cells.map Value.returned⟩) ∧
      driver.reply final selection = .ok (rows ++ more) := by
  -- Every insertion is the first one into a table that already holds the rows before it.
  induction written generalizing state rows with
  | nil => exact ⟨state, [], rfl, .nil, by rw [starts, List.append_nil]⟩
  | cons cells rest ih =>
      obtain ⟨next, row, executed, read, replies⟩ :=
        serves.execute starts (lengths cells List.mem_cons_self) (numbers cells List.mem_cons_self)
      obtain ⟨final, more, inserted, others, listed⟩ := ih replies
        (fun other member => lengths other (List.mem_cons_of_mem _ member))
        (fun other member => numbers other (List.mem_cons_of_mem _ member))
      refine ⟨final, row :: more, ?_, .cons read others, ?_⟩
      · rw [Driver.insertAll, executed]
        exact inserted
      · rw [listed, List.append_assoc, List.singleton_append]

/-- Values that are inserted into an empty table are all that is listed, also by an executor that
leaves the decoding to others. -/
theorem query (serves : driver.Serves insertion selection width)
    (empty : driver.reply state selection = .ok []) {type : RowType} (wide : type.width = width)
    (data : List Datum) (admits : ∀ datum ∈ data, type.Admits datum)
    (numbers : ∀ datum ∈ data, ∀ number, .float number ∈ type.cells datum →
      number.isNan = false) :
    ∃ final, driver.insertAll insertion state (data.map type.cells) = .ok final ∧
      driver.query final selection type.decode = .ok (data.map Datum.settle) ∧
      type.decodeReply (driver.executor final selection) = .ok (data.map Datum.settle) := by
  have lengths : ∀ cells ∈ data.map type.cells, cells.length = width := by
    intro cells member
    obtain ⟨datum, known, rfl⟩ := List.mem_map.mp member
    rw [RowType.length_cells (admits datum known), wide]
  obtain ⟨final, more, inserted, read, replies⟩ := serves.insertAll empty lengths
    (by simpa using numbers)
  have read : List.Forall₂ (fun row read => toRow row = .ok read) more
      (data.map type.returned) := by simpa [Function.comp_def, RowType.returned] using read
  have mapped {α : Type} (mapper : Row → Except QueryError α) :
      driver.query final selection mapper = (data.map type.returned).mapM mapper := by
    rw [Driver.query, replies]
    exact fetch_of_toRow read mapper
  have decoded := RowType.mapM_decode_returned admits
  refine ⟨final, inserted, (mapped _).trans decoded, ?_⟩
  -- The executor hands over every row as it is, and it is the terminal that decodes.
  have listed : driver.executor final selection = .ok (data.map type.returned) := by
    rw [Driver.executor, mapped, mapM_eq_ok_iff, List.forall₂_same]
    exact fun _ _ => rfl
  rw [listed]
  exact decoded

end Serves

/-- What comes of rows that are inserted into an empty table and listed again. -/
structure Lists (driver : Driver State) (insertion : String) (selection : Prepared)
    (start : State) (types : List RowType) : Prop where
  /-- All rows are listed in the order in which they were inserted, as they settle. -/
  rows : ∀ rows : List (List Datum), (∀ row ∈ rows, Storable types row) →
    ∃ final, driver.insertAll insertion start (rows.map (RowType.allCells types)) = .ok final ∧
      driver.query final selection (RowType.tuple types).decode =
        .ok (rows.map fun row => .tuple (Datum.settleAll row))
  /-- A row is listed as it was inserted just if none of its fields is hollow. -/
  unchanged_iff : ∀ row, Storable types row →
    (Datum.settleAll row = row ↔ ∀ field ∈ row, ¬ field.Hollow)
  /-- No field is hollow whose type is optional once at most. -/
  plain : ∀ type : RowType, type.IsPlain → ∀ field, type.Admits field → ¬ field.Hollow
  /-- The rows of a table are listed by the statement that selects from it. -/
  records : ∀ handle : Alias, handle.table.columns.map Column.rowType = types →
    selection = wholeTable handle →
    (database.select (.ofTable handle)).prepare = .ok selection ∧
      ∀ rows : List (List Datum), (∀ row ∈ rows, Storable types row) →
        ∃ final, driver.insertAll insertion start (rows.map (RowType.allCells types)) = .ok final ∧
          (database.select (.ofTable handle)).list (driver.executor final) =
            .ok (rows.map (.record handle.table))
  /-- Whatever rows there are, all of them are fetched, or one error: that of the driver or that
  of the first row that is not mapped. -/
  fetched : ∀ {α : Type} (reply : Except String (List (List RawCell)))
    (mapper : Row → Except QueryError α) (result : Except QueryError (List α)),
    fetch reply mapper = result ↔ Fetched mapper reply result

variable {driver : Driver State} {insertion : String} {selection : Prepared} {start : State}
  {types : List RowType}

theorem Serves.tuples (serves : driver.Serves insertion selection types.length)
    (empty : driver.reply start selection = .ok []) (fields : ∀ type ∈ types, type.IsField)
    {rows : List (List Datum)} (storable : ∀ row ∈ rows, Storable types row) :
    ∃ final, driver.insertAll insertion start (rows.map (RowType.allCells types)) = .ok final ∧
      driver.query final selection (RowType.tuple types).decode =
        .ok (rows.map fun row => .tuple (Datum.settleAll row)) := by
  have wide : (RowType.tuple types).width = types.length := RowType.totalWidth_of_isField fields
  obtain ⟨final, inserted, listed, -⟩ := serves.query empty wide (rows.map .tuple)
    (List.forall_mem_map.mpr fun row member => .tuple (storable row member).admits)
    (List.forall_mem_map.mpr fun row member => (storable row member).numbers)
  rw [List.map_map] at inserted listed
  exact ⟨final, inserted, listed⟩

theorem Serves.records (serves : driver.Serves insertion selection types.length)
    (empty : driver.reply start selection = .ok []) {handle : Alias}
    (columns : handle.table.columns.map Column.rowType = types)
    (prepares : (database.select (.ofTable handle)).prepare = .ok selection)
    {rows : List (List Datum)} (storable : ∀ row ∈ rows, Storable types row) :
    ∃ final, driver.insertAll insertion start (rows.map (RowType.allCells types)) = .ok final ∧
      (database.select (.ofTable handle)).list (driver.executor final) =
        .ok (rows.map (.record handle.table)) := by
  subst columns
  have wide : (RowType.record handle.table).width =
      (handle.table.columns.map Column.rowType).length := by
    rw [RowType.width, List.length_map]
  have admits (row : List Datum) (member : row ∈ rows) :=
    (storable row member).admits
  have cells (row : List Datum) (member : row ∈ rows) :
      (RowType.record handle.table).cells (.record handle.table row) =
        RowType.allCells (handle.table.columns.map Column.rowType) row :=
    (RowType.allCells_columns (admits row member)).symm
  have written : (rows.map (.record handle.table)).map (RowType.record handle.table).cells =
      rows.map (RowType.allCells (handle.table.columns.map Column.rowType)) :=
    List.map_map.trans (List.map_congr_left cells)
  have settled : (rows.map (.record handle.table)).map Datum.settle =
      rows.map (.record handle.table) :=
    List.map_map.trans (List.map_congr_left fun row member =>
      congrArg _ (RowType.settleAll_of_columns (admits row member)))
  obtain ⟨final, inserted, -, listed⟩ := serves.query empty wide (rows.map (.record handle.table))
    (List.forall_mem_map.mpr fun row member => .record (admits row member))
    (List.forall_mem_map.mpr fun row member => cells row member ▸ (storable row member).numbers)
  rw [written] at inserted
  rw [settled] at listed
  refine ⟨final, inserted, ?_⟩
  have runs := (database.select (.ofTable handle)).runsBy_list Id (driver.executor final)
  rw [prepares] at runs
  exact runs.trans listed

/-- Rows of any fields are listed as they were inserted, as far as a driver can be relied on. -/
theorem rows_listed (fields : ∀ type ∈ types, type.IsField)
    (serves : driver.Serves insertion selection types.length)
    (empty : driver.reply start selection = .ok []) :
    driver.Lists insertion selection start types := by
  constructor
  case rows => exact fun rows => serves.tuples empty fields
  case unchanged_iff =>
    exact fun row storable => RowType.settleAll_eq_self_iff_hollow fields storable.admits
  case plain => exact fun type plain field => RowType.not_hollow_of_isPlain plain
  case records =>
    rintro handle columns rfl
    have prepares := prepare_wholeTable handle
    exact ⟨prepares, fun rows => serves.records empty columns prepares⟩
  case fetched => exact fun reply mapper result => fetch_eq_iff

end Driver

/-! ## The store -/

theorem Argument.returned_kept {argument : Argument}
    (number : ∀ value, argument = .float value → value.isNan = false) :
    Returned argument argument.kept := by
  cases argument with
  | missing => exact .missing rfl
  | bool value => exact .bool rfl rfl rfl
  | integer value => exact .integer rfl rfl rfl
  | float value =>
      have real : (Argument.float value).kept =
          { RawCell.bare "REAL" with float := .ok value } := by
        rw [Argument.kept, number value rfl]
        rfl
      rw [real]
      exact .float (number value rfl) rfl rfl rfl
  | text value => exact .text rfl rfl rfl
  | blob bytes => exact .blob rfl rfl rfl

/-- A store can be relied on. -/
theorem Store.serves (insertion : String) (selection : Prepared) (width : Nat) :
    (Store.driver .every).Serves insertion selection width where
  inserts store rows arguments replies _ numbers := by
    cases replies
    refine ⟨store.insert arguments, arguments.map Argument.kept, rfl, ?_, rfl⟩
    rw [List.forall₂_map_right_iff, List.forall₂_same]
    exact fun argument member => argument.returned_kept fun value same =>
      numbers value (same ▸ member)

namespace Sample

/-- A field whose type is written out. -/
def field (name : String) (type : FieldType) : Field :=
  ⟨name, type, []⟩

/-- The type of what may be absent. -/
def option (inner : FieldType) : FieldType :=
  .path ["Option"] (some [inner])

/-- A record with a field of every data type, and two that may be absent. -/
def visit : Declaration where
  form := .record
  name := "Visit"
  attributes := []
  parameters := []
  fields := [field "first" (.path ["bool"] none), field "desk" (.path ["i32"] none),
    field "id" (.path ["i64"] none), field "hours" (.path ["f64"] none),
    field "guest" (.path ["String"] none), field "photo" (.path ["Vec"] (some [.path ["u8"] none])),
    field "note" (option (.path ["String"] none)),
    field "badge" (option (option (.path ["i64"] none)))]

/-- What the fields of a visit are read as. -/
def visitTypes : List RowType :=
  [.scalar .boolean, .scalar .integer, .scalar .bigInt, .scalar .double, .scalar .text,
    .scalar .blob, .optional (.scalar .text), .optional (.optional (.scalar .bigInt))]

/-- A visit with as little in it as there can be. -/
def early : List Datum :=
  [.scalar (.boolean false), .scalar (.integer (-2147483648)),
    .scalar (.bigInt (-9223372036854775808)), .scalar (.double ⟨0x8000000000000000⟩),
    .scalar (.text ""), .scalar (.blob []), .absent, .present (.present (.scalar (.bigInt 0)))]

/-- A visit with as much in it as there can be, but for a badge without a number. -/
def late : List Datum :=
  [.scalar (.boolean true), .scalar (.integer 2147483647),
    .scalar (.bigInt 9223372036854775807), .scalar (.double ⟨0x7ff0000000000000⟩),
    .scalar (.text "Ö"), .scalar (.blob [0, 255]), .present (.scalar (.text "")),
    .present .absent]

theorem storable_early : Storable visitTypes early where
  admits := .cons (.scalar rfl) <| .cons (.scalar rfl) <| .cons (.scalar rfl) <|
    .cons (.scalar rfl) <| .cons (.scalar rfl) <| .cons (.scalar rfl) <| .cons (.absent _) <|
    .cons (.present (.present (.scalar rfl))) .nil
  numbers := by
    have zero : Double.isNan ⟨0x8000000000000000⟩ = false := by decide
    simp [visitTypes, early, RowType.allCells, RowType.cells, Datum.cell, Scalar.value, zero]

theorem storable_late : Storable visitTypes late where
  admits := .cons (.scalar rfl) <| .cons (.scalar rfl) <| .cons (.scalar rfl) <|
    .cons (.scalar rfl) <| .cons (.scalar rfl) <| .cons (.scalar rfl) <|
    .cons (.present (.scalar rfl)) <| .cons (.present (.absent _)) .nil
  numbers := by
    have infinity : Double.isNan ⟨0x7ff0000000000000⟩ = false := by decide
    simp [visitTypes, late, RowType.allCells, RowType.cells, Datum.cell, Scalar.value, infinity]

/-- The statement that inserts a visit. -/
def insertion : String := "insert into VISIT values (?, ?, ?, ?, ?, ?, ?, ?)"

/-- The statement that lists the visits. -/
def selection : Prepared := ⟨"select v.* from VISIT as v", []⟩

theorem visits_listed :
    (∃ definition, visit.define = .ok definition ∧ definition.rowTypes? = some visitTypes) ∧
      (∀ type ∈ visitTypes, type.IsField) ∧
      (Store.driver .every).Serves insertion selection visitTypes.length ∧
      (Store.driver .every).reply {} selection = .ok [] ∧
      (Store.driver .every).Lists insertion selection {} visitTypes ∧
      ∃ final, (Store.driver .every).insertAll insertion {}
          ([early, late].map (RowType.allCells visitTypes)) = .ok final ∧
        (Store.driver .every).query final selection (RowType.tuple visitTypes).decode =
          .ok [.tuple early, .tuple (late.set 7 .absent)] := by
  obtain ⟨definition, defined, known⟩ :
      ∃ definition, visit.define = .ok definition ∧ definition.rowTypes? = some visitTypes :=
    ⟨_, rfl, rfl⟩
  have fields := RowType.isField_of_rowTypes? known
  have serves := Store.serves insertion selection visitTypes.length
  have empty : (Store.driver .every).reply {} selection = .ok [] := rfl
  have lists := Driver.rows_listed fields serves empty
  refine ⟨⟨definition, defined, known⟩, fields, serves, empty, lists, ?_⟩
  exact lists.rows [early, late] (by simp [storable_early, storable_late])

/-- Guests, some of whom have left a note. -/
def guests : Alias :=
  ⟨0, some "g", "Guest", "GUEST", none,
    [⟨"id", "ID", .bigInt, false, false, true⟩, ⟨"note", "NOTE", .text, true, true, false⟩]⟩

example :
    ∃ final, (Store.driver .every).insertAll "insert into GUEST values (?, ?)" {}
        [[.integer 2, .null], [.integer 1, .text ""]] = .ok final ∧
      (database.select (.ofTable guests)).list (final.executor .every) =
        .ok [.record guests.table [.scalar (.bigInt 2), .absent],
          .record guests.table [.scalar (.bigInt 1), .present (.scalar (.text ""))]] :=
  ⟨_, rfl, rfl⟩

/-- A record with one field, which tells an answer without a score from no answer. -/
def answer : Declaration where
  form := .record
  name := "Answer"
  attributes := []
  parameters := []
  fields := [field "score" (option (option (.path ["i64"] none)))]

/-- Not all rows come back as they were inserted. -/
theorem hollow_forgotten :
    ¬ ∀ (declaration : Declaration) (definition : TableDefinition) (types : List RowType)
        (driver : Driver Store) (insertion : String) (selection : Prepared) (start : Store)
        (rows : List (List Datum)),
      declaration.define = .ok definition → definition.columns ≠ [] →
      definition.rowTypes? = some types →
      driver.Serves insertion selection types.length →
      driver.reply start selection = .ok [] → (∀ row ∈ rows, Storable types row) →
      ∃ final, driver.insertAll insertion start (rows.map (RowType.allCells types)) = .ok final ∧
        driver.query final selection (RowType.tuple types).decode = .ok (rows.map .tuple) := by
  intro claimed
  have storable : Storable [.optional (.optional (.scalar .bigInt))] [.present .absent] :=
    ⟨.cons (.present (.absent _)) .nil, by simp [RowType.allCells, RowType.cells, RowType.width]⟩
  obtain ⟨final, inserted, listed⟩ := claimed answer _ _ (Store.driver .every) "" ⟨"", []⟩ {}
    [[.present .absent]] rfl nofun rfl (Store.serves ..) rfl (by simpa using storable)
  cases inserted
  cases listed

end Sample

end Sqlite

end SqlSelect
