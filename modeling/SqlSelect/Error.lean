import SqlSelect.Alias
import SqlSelect.Dialect.Suffix

/-!
# Errors

Everything that can go wrong between naming a table and decoding its rows, as
causes.  The wording of each is in one place, `QueryError.message`.
-/

namespace SqlSelect

/-- Features whose omission would change what a statement means. -/
inductive Feature where
  | temporaryTables
  | unorderedRowNumber
  | keptLocks (lock : LockLevel)
deriving DecidableEq, Repr

/-- A feature in words. -/
def Feature.name : Feature → String
  | .temporaryTables => "local temporary tables"
  | .unorderedRowNumber => "row_number() without order by"
  | .keptLocks lock => "keeping " ++ lock.name ++ " locks"

/-- Why a row could not be decoded. -/
inductive RowFault where
  /-- A cell of the wrong storage class. -/
  | mismatch (expected found : Kind)
  /-- An integer outside the 32-bit range. -/
  | overflow (number : Int64)
  /-- A cell index past the end of the row. -/
  | outOfRange (index width : Nat)
  /-- A row with too few or too many cells. -/
  | wrongWidth (expected found : Nat)
deriving DecidableEq, Repr

/-- A decoding fault in words. -/
def RowFault.message : RowFault → String
  | .mismatch expected found => "expected " ++ expected.name ++ " but found " ++ found.name
  | .overflow number => toString number.toInt ++ " does not fit in i32"
  | .outOfRange index width =>
    "column index " ++ index.repr ++ " out of range for row of " ++ width.repr ++ " columns"
  | .wrongWidth expected found =>
    "expected " ++ expected.repr ++ " columns but the row has " ++ found.repr

/-- Why a configuration could not be loaded. -/
inductive ConfigFault where
  /-- The text is not JSON. -/
  | malformed
  /-- A value of a kind that does not belong there. -/
  | unexpected (field : String)
  | missing (field : String)
  | duplicate (field : String)
  | unknownDialect (name : String)
deriving DecidableEq, Repr

/-- A configuration fault in words. -/
def ConfigFault.message : ConfigFault → String
  | .malformed => "malformed text"
  | .unexpected field => "unexpected value for " ++ field
  | .missing field => "missing " ++ field
  | .duplicate field => "duplicate " ++ field
  | .unknownDialect name => "unknown dialect " ++ name

/-- What goes wrong while a statement is built, written or run. -/
inductive QueryError where
  /-- No visible alias exposes the column. -/
  | unresolvedReference (column : ColumnInfo) (visible : List Alias)
  /-- Several aliases of the nearest level expose the column. -/
  | ambiguousReference (column : ColumnInfo) (candidates : List Alias)
  /-- An IN list without items, given the text of its operand. -/
  | emptyInList (operand : String)
  /-- A join condition that does not mention the alias it joins. -/
  | invalidJoin (handle : Alias)
  | unsupported (dialect : Dialect) (feature : Feature)
  | tooManyRows (count : Nat)
  | noSuchRow
  | rowMapping (fault : RowFault)
  | configuration (fault : ConfigFault)
  /-- The database itself failed. -/
  | executor (message : String)
deriving DecidableEq, Repr

namespace QueryError

/-- The display names of some aliases, separated by commas. -/
def aliasNames (aliases : List Alias) : String :=
  ", ".intercalate (aliases.map Alias.displayName)

/-- The text of an error. -/
def message : QueryError → String
  | .unresolvedReference column visible =>
    "unable to resolve column " ++ column.text ++
      ": no visible alias exposes it (visible aliases: " ++ aliasNames visible ++ ")"
  | .ambiguousReference column candidates =>
    "column " ++ column.text ++ " is ambiguous between aliases " ++ aliasNames candidates
  | .emptyInList operand => "IN list for " ++ operand ++ " is empty"
  | .invalidJoin handle =>
    "join condition for alias " ++ handle.displayName ++ " does not reference it"
  | .unsupported dialect feature => dialect.name ++ " does not support " ++ feature.name
  | .tooManyRows count => "expected at most one row but got " ++ count.repr
  | .noSuchRow => "expected exactly one row but got none"
  | .rowMapping fault => "row mapping error: " ++ fault.message
  | .configuration fault => "configuration error: " ++ fault.message
  | .executor message => "executor error: " ++ message

/-- The error arises while a statement is built or written, before it is run. -/
def isConstruction : QueryError → Bool
  | .unresolvedReference _ _ => true
  | .ambiguousReference _ _ => true
  | .emptyInList _ => true
  | .invalidJoin _ => true
  | .unsupported _ _ => true
  | _ => false

end QueryError

/-! ## Outcomes -/

theorem except_bind_ok {α β ε : Type} {result : Except ε α} {next : α → Except ε β}
    {value : β} :
    (result >>= next) = .ok value ↔ ∃ middle, result = .ok middle ∧ next middle = .ok value := by
  cases result <;> simp [bind, Except.bind]

theorem except_pure_ok {α ε : Type} {given value : α} :
    (pure given : Except ε α) = .ok value ↔ given = value := by
  simp [pure, Except.pure]

theorem except_pure_error {α ε : Type} {given : α} {error : ε} :
    ¬ (pure given : Except ε α) = .error error := by
  simp [pure, Except.pure]

theorem except_bind_error {α β ε : Type} {result : Except ε α} {next : α → Except ε β}
    {error : ε} :
    (result >>= next) = .error error ↔
      result = .error error ∨ ∃ middle, result = .ok middle ∧ next middle = .error error := by
  cases result <;> simp [bind, Except.bind]

section Lists

variable {α β ε : Type} {make : α → Except ε β}

theorem exists_of_mem_mapM {items : List α} {results : List β}
    (made : items.mapM make = .ok results) {result : β} (member : result ∈ results) :
    ∃ item ∈ items, make item = .ok result := by
  induction items generalizing results with
  | nil =>
      cases made
      cases member
  | cons item rest ih =>
      simp only [List.mapM_cons, except_bind_ok, except_pure_ok] at made
      rcases made with ⟨first, head, others, tail, rfl⟩
      rcases List.mem_cons.mp member with rfl | member
      · exact ⟨item, List.mem_cons_self, head⟩
      · rcases ih tail member with ⟨origin, known, made⟩
        exact ⟨origin, List.mem_cons_of_mem item known, made⟩

theorem length_of_mapM {items : List α} {results : List β}
    (made : items.mapM make = .ok results) : results.length = items.length := by
  induction items generalizing results with
  | nil =>
      cases made
      rfl
  | cons item rest ih =>
      simp only [List.mapM_cons, except_bind_ok, except_pure_ok] at made
      rcases made with ⟨first, head, others, tail, rfl⟩
      rw [List.length_cons, List.length_cons, ih tail]

theorem mapM_error_of_first {before after : List α} {item : α} {error : ε}
    (fine : ∀ earlier ∈ before, ∃ result, make earlier = .ok result)
    (fails : make item = .error error) : (before ++ item :: after).mapM make = .error error := by
  induction before with
  | nil => simp [fails, bind, Except.bind]
  | cons earlier rest ih =>
      rcases fine earlier List.mem_cons_self with ⟨result, made⟩
      have restFine : ∀ other ∈ rest, ∃ result, make other = .ok result :=
        fun other member => fine other (List.mem_cons_of_mem earlier member)
      rw [List.cons_append, List.mapM_cons, made, ih restFine]
      rfl

/-- A list comes out if every item does. -/
theorem exists_mapM_ok_iff {items : List α} :
    (∃ results, items.mapM make = .ok results) ↔
      ∀ item ∈ items, ∃ result, make item = .ok result := by
  induction items with
  | nil => simp [pure, Except.pure]
  | cons item rest ih =>
      simp only [List.mapM_cons, except_bind_ok, except_pure_ok, List.forall_mem_cons, ← ih]
      constructor
      · rintro ⟨_, result, made, others, restMade, _⟩
        exact ⟨⟨result, made⟩, others, restMade⟩
      · rintro ⟨⟨result, made⟩, others, restMade⟩
        exact ⟨_, result, made, others, restMade, rfl⟩

/-- A list fails with the error of the first item that does. -/
theorem mapM_eq_error_iff {items : List α} {error : ε} :
    items.mapM make = .error error ↔
      ∃ before item after, items = before ++ item :: after ∧
        (∀ earlier ∈ before, ∃ result, make earlier = .ok result) ∧
          make item = .error error := by
  constructor
  · intro failed
    induction items with
    | nil => cases failed
    | cons item rest ih =>
        simp only [List.mapM_cons, except_bind_error] at failed
        rcases failed with fails | ⟨result, made, fails | ⟨_, _, impossible⟩⟩
        · exact ⟨[], item, rest, rfl, List.forall_mem_nil _, fails⟩
        · obtain ⟨before, other, after, rfl, fine, fails⟩ := ih fails
          refine ⟨item :: before, other, after, rfl, ?_, fails⟩
          intro earlier member
          rcases List.mem_cons.mp member with rfl | member
          · exact ⟨result, made⟩
          · exact fine earlier member
        · exact (except_pure_error impossible).elim
  · rintro ⟨before, item, after, rfl, fine, fails⟩
    exact mapM_error_of_first fine fails

end Lists

end SqlSelect
