import SqlSelect.Proofs.Spelling.Symbol

/-!
# Names in use

A walk over the query tree collects the names that a statement is written with: of
tables and schemas, of aliases, of columns, and the labels of its SELECT list.  All else
in the words of a statement is fixed.

Two characters next to each other open a comment in SQL: two minus signs, or a slash and a
star.  A calm text has no such pair, nor ends with what could begin one.
-/

namespace SqlSelect

section Walk

variable (database : Database)

/-- The names that the relation behind an alias is written with. -/
def Alias.tableNames (handle : Alias) : List String :=
  handle.displayName :: handle.table.name ::
    (handle.table.schema <|> database.defaultSchema).toList

mutual

/-- The names that an expression is written with. -/
def Expr.names : Expr → List String
  | .argument _ | .literal _ | .countAll | .column (.unresolved _ _) => []
  | .column (.resolved resolved) => [resolved.alias.displayName, resolved.column.name]
  | .not operand | .negate operand | .isNull _ operand | .cast operand _ => operand.names
  | .binary _ left right => left.names ++ right.names
  | .between _ operand low high => operand.names ++ low.names ++ high.names
  | .like _ operand pattern => operand.names ++ pattern.names
  | .inList _ operand items => operand.names ++ Expr.listNames items
  | .inQuery _ operand query => operand.names ++ query.names
  | .exists _ query | .subquery query => query.names
  | .call _ _ arguments => Expr.listNames arguments
  | .window _ arguments partition order =>
    Expr.listNames arguments ++
      ((if database.dialect.supportsPartition then Expr.listNames partition else []) ++
        if database.dialect.supportsWindowOrder then Expr.orderNames order else [])
  | .case branches otherwise => Expr.branchNames branches ++ Expr.optionNames otherwise

/-- The names of the expressions of a list. -/
def Expr.listNames : List Expr → List String
  | [] => []
  | expr :: rest => expr.names ++ Expr.listNames rest

/-- The names of the entries of an ORDER BY list. -/
def Expr.orderNames : List (OrderItem Expr) → List String
  | [] => []
  | ⟨expr, _⟩ :: rest => expr.names ++ Expr.orderNames rest

/-- The names of the branches of a CASE. -/
def Expr.branchNames : List (Branch Expr) → List String
  | [] => []
  | ⟨condition, result⟩ :: rest => condition.names ++ result.names ++ Expr.branchNames rest

/-- The names of an expression that may be missing. -/
def Expr.optionNames : Option Expr → List String
  | none => []
  | some expr => expr.names

/-- The names of a source of a FROM tree.  The query of a common table is not written in
this place. -/
def Source.names : Source → List String
  | ⟨handle, .table⟩ => handle.tableNames database
  | ⟨handle, .temporary⟩ => [handle.displayName, handle.table.name]
  | ⟨handle, .derived query⟩ => handle.displayName :: query.names
  | ⟨handle, .common _⟩ => [handle.displayName]

/-- The names of the joins of a FROM tree. -/
def Query.joinNames : List Join → List String
  | [] => []
  | ⟨_, source, on⟩ :: rest => source.names ++ Expr.optionNames on ++ Query.joinNames rest

/-- The names of the entries of a SELECT list, with their labels. -/
def Query.projectionNames : List Projection → List String
  | [] => []
  | ⟨expr, label⟩ :: rest => expr.names ++ label.toList ++ Query.projectionNames rest

/-- The names of the queries combined with a query. -/
def Query.operandNames : List Operand → List String
  | [] => []
  | ⟨_, query⟩ :: rest => query.names ++ Query.operandNames rest

/-- The names that a query is written with. -/
def Query.names : Query → List String
  | { distinct := _, projection, source, joins, filter, groupBy, having, operands, orderBy
      fetchFirst := _, offset := _, isolation := _, lock := _ } =>
    Query.projectionNames projection ++ source.names ++ Query.joinNames joins ++
      Expr.optionNames filter ++ Expr.listNames groupBy ++ Expr.optionNames having ++
        Query.operandNames operands ++ Expr.orderNames orderBy

end

/-- The names that a common table is declared with. -/
def CommonQuery.names (common : CommonQuery) : List String :=
  common.alias.displayName :: common.query.names database

/-- The names in use in a whole statement, those of its WITH clause first. -/
def Query.namesInUse (query : Query) : List String :=
  (query.hoisted database.dialect.windowClauses).flatMap (CommonQuery.names database) ++
    query.names database

end Walk

/-! ## Calm texts -/

/-- Two characters next to each other do not open a comment. -/
def Unmarked (first second : Char) : Prop :=
  ¬ (first = '-' ∧ second = '-') ∧ ¬ (first = '/' ∧ second = '*')

instance : DecidableRel Unmarked := fun _ _ => inferInstanceAs (Decidable (_ ∧ _))

/-- No comment is opened in the text, nor at its end by whatever stands behind it. -/
structure Calm (text : List Char) : Prop where
  chain : text.IsChain Unmarked
  ended : ∀ last ∈ text.getLast?, last ≠ '-' ∧ last ≠ '/'

instance : DecidablePred Calm := fun text =>
  have : Decidable (∀ last ∈ text.getLast?, last ≠ '-' ∧ last ≠ '/') :=
    Option.decidableForallMem text.getLast?
  decidable_of_iff (text.IsChain Unmarked ∧ ∀ last ∈ text.getLast?, last ≠ '-' ∧ last ≠ '/')
    ⟨fun ⟨chain, ended⟩ => ⟨chain, ended⟩, fun ⟨chain, ended⟩ => ⟨chain, ended⟩⟩

/-- The text has none of the characters that a comment begins with.  A star opens none
without a slash ahead of it. -/
def Markless (text : List Char) : Prop :=
  '-' ∉ text ∧ '/' ∉ text

instance : DecidablePred Markless := fun _ => inferInstanceAs (Decidable (_ ∧ _))

namespace Calm

variable {left right text : List Char}

theorem nil : Calm [] := by decide

theorem unmarked_of_getLast (calm : Calm left) {last : Char} (member : last ∈ left.getLast?)
    (next : Char) : Unmarked last next := by
  have ended := calm.ended last member
  exact ⟨fun both => ended.1 both.1, fun both => ended.2 both.1⟩

theorem append (first : Calm left) (second : Calm right) : Calm (left ++ right) := by
  constructor
  · rw [List.isChain_append]
    exact ⟨first.chain, second.chain, fun _ member next _ =>
      first.unmarked_of_getLast member next⟩
  · intro last member
    rw [List.getLast?_append, Option.mem_def, Option.or_eq_some_iff] at member
    rcases member with member | ⟨_, member⟩
    · exact second.ended last member
    · exact first.ended last member

/-- A minus sign ahead of a text that does not begin with one. -/
theorem sign {first : Char} (calm : Calm text) (begins : first ∈ text.head?)
    (unsigned : first ≠ '-') : Calm ('-' :: text) := by
  obtain ⟨rest, rfl⟩ := List.head?_eq_some_iff.mp begins
  refine ⟨List.isChain_cons_cons.mpr ⟨?_, calm.chain⟩, ?_⟩
  · exact ⟨fun both => unsigned both.2, by simp⟩
  · rw [List.getLast?_cons_cons]
    exact calm.ended

theorem of_markless (plain : Markless text) : Calm text := by
  induction text with
  | nil => exact nil
  | cons char rest ih =>
      have one : Calm [char] := by
        refine ⟨List.isChain_singleton char, ?_⟩
        rintro last member
        obtain rfl : last = char := by simpa using member.symm
        exact ⟨fun same => plain.1 (same ▸ List.mem_cons_self),
          fun same => plain.2 (same ▸ List.mem_cons_self)⟩
      have others : Markless rest :=
        ⟨fun member => plain.1 (List.mem_cons_of_mem char member),
          fun member => plain.2 (List.mem_cons_of_mem char member)⟩
      exact one.append (ih others)

end Calm

/-! ## Words made of names -/

/-- A fixed text that opens no comment, even behind a minus sign, and has no quote in
it. -/
structure Harmless (text : String) : Prop where
  calm : Calm text.toList
  unsigned : '-' ∉ text.toList.head?
  unquoted : '\'' ∉ text.toList

instance : DecidablePred Harmless := fun text =>
  decidable_of_iff (Calm text.toList ∧ '-' ∉ text.toList.head? ∧ '\'' ∉ text.toList)
    ⟨fun ⟨calm, unsigned, unquoted⟩ => ⟨calm, unsigned, unquoted⟩,
      fun ⟨calm, unsigned, unquoted⟩ => ⟨calm, unsigned, unquoted⟩⟩

/-- A word is looked at by its characters, rather than by its encoding. -/
theorem Harmless.ofList {chars : List Char}
    (harmless : Calm chars ∧ '-' ∉ chars.head? ∧ '\'' ∉ chars) :
    Harmless (String.ofList chars) := by
  obtain ⟨calm, unsigned, unquoted⟩ := harmless
  constructor <;> rwa [String.toList_ofList]

theorem Harmless.of_markless {text : String} (plain : Markless text.toList)
    (unquoted : '\'' ∉ text.toList) : Harmless text :=
  ⟨.of_markless plain, fun member => plain.1 (List.mem_of_mem_head? member), unquoted⟩

theorem not_mem_repr {char : Char} (other : char.isDigit = false) (number : Nat) :
    char ∉ number.repr.toList := by
  intro member
  rw [Nat.toList_repr] at member
  have digit := Nat.isDigit_of_mem_toDigits (by omega) (by omega) member
  rw [other] at digit
  cases digit

theorem markless_repr (number : Nat) : Markless number.repr.toList :=
  ⟨not_mem_repr (by decide) number, not_mem_repr (by decide) number⟩

/-- A word is put together from some names and from fixed text. -/
inductive Composed (names : List String) : String → Prop where
  | fixed {text : String} : Harmless text → Composed names text
  | name {text : String} : text ∈ names → Composed names text
  | append {left right : String} :
      Composed names left → Composed names right → Composed names (left ++ right)

namespace Composed

variable {names more : List String} {text : String}

theorem mono (composed : Composed names text) (within : names ⊆ more) : Composed more text := by
  induction composed with
  | fixed harmless => exact .fixed harmless
  | name member => exact .name (within member)
  | append _ _ left right => exact .append left right

theorem word {chars : List Char} (harmless : Calm chars ∧ '-' ∉ chars.head? ∧ '\'' ∉ chars) :
    Composed names (String.ofList chars) :=
  .fixed (.ofList harmless)

theorem number (value : Nat) : Composed names value.repr :=
  .fixed (.of_markless (markless_repr value) (not_mem_repr (by decide) value))

/-- A word made of names that play no part in comments opens none. -/
theorem calm (composed : Composed names text)
    (plain : ∀ name ∈ names, Markless name.toList) : Calm text.toList := by
  induction composed with
  | fixed harmless => exact harmless.calm
  | name member => exact .of_markless (plain _ member)
  | append _ _ left right =>
      rw [String.toList_append]
      exact left.append right

/-- Such a word does not begin with a minus sign. -/
theorem unsigned (composed : Composed names text)
    (plain : ∀ name ∈ names, Markless name.toList) :
    '-' ∉ text.toList.head? := by
  induction composed with
  | fixed harmless => exact harmless.unsigned
  | name known =>
      intro member
      exact (plain _ known).1 (List.mem_of_mem_head? member)
  | append _ _ left right =>
      rw [String.toList_append, List.head?_append, Option.mem_def, Option.or_eq_some_iff]
      rintro (member | ⟨_, member⟩)
      · exact left member
      · exact right member

/-- A word made of names without a quote has none. -/
theorem unquoted (composed : Composed names text)
    (unquoted : ∀ name ∈ names, '\'' ∉ name.toList) : '\'' ∉ text.toList := by
  induction composed with
  | fixed harmless => exact harmless.unquoted
  | name member => exact unquoted _ member
  | append _ _ left right =>
      rw [String.toList_append, List.mem_append]
      rintro (member | member)
      · exact left member
      · exact right member

end Composed

/-! ## Suffixes -/

/-- A text without names that begins with a blank. -/
structure Trailing (text : String) : Prop where
  composed : Composed [] text
  blank : text.toList.head? = some ' '

namespace Trailing

variable {left right text : String}

theorem word {chars : List Char} (harmless : Calm chars ∧ '-' ∉ chars.head? ∧ '\'' ∉ chars ∧
    chars.head? = some ' ') : Trailing (String.ofList chars) := by
  obtain ⟨calm, unsigned, unquoted, blank⟩ := harmless
  exact ⟨.word ⟨calm, unsigned, unquoted⟩, by rwa [String.toList_ofList]⟩

theorem append (first : Trailing left) (second : Composed [] right) :
    Trailing (left ++ right) := by
  refine ⟨first.composed.append second, ?_⟩
  rw [String.toList_append, List.head?_append, first.blank, Option.some_or]

theorem number (first : Trailing left) (value : Nat) : Trailing (left ++ value.repr) :=
  first.append (.number value)

theorem behind (trailing : Trailing text) : Trailing ("" ++ text) := by
  rwa [String.empty_append]

end Trailing

namespace Dialect

variable {fetch offset : Option Nat}

theorem trailing_standardPagination (asked : (fetch.isSome || offset.isSome) = true) :
    Trailing (standardPagination fetch offset) := by
  have skipped (count : Nat) : Trailing (" offset " ++ count.repr ++ " rows") :=
    (Trailing.word (by decide)).number count |>.append (.word (by decide))
  have kept (count : Nat) : Trailing (" fetch first " ++ count.repr ++ " rows only") :=
    (Trailing.word (by decide)).number count |>.append (.word (by decide))
  cases offset with
  | none =>
      cases fetch with
      | none => cases asked
      | some fetch => exact (kept fetch).behind
  | some offset =>
      cases fetch with
      | none => exact (skipped offset).append (.word (by decide))
      | some fetch => exact (skipped offset).append (kept fetch).composed

theorem trailing_limitedPagination {unlimited : String}
    (unbounded : Trailing (" limit " ++ unlimited))
    (asked : (fetch.isSome || offset.isSome) = true) :
    Trailing (limitedPagination unlimited fetch offset) := by
  have limited (count : Nat) : Trailing (" limit " ++ count.repr) :=
    (Trailing.word (by decide)).number count
  cases fetch with
  | none =>
      cases offset with
      | none => cases asked
      | some offset => exact (unbounded.append (.word (by decide))).number offset
  | some fetch =>
      cases offset with
      | none => exact limited fetch
      | some offset => exact ((limited fetch).append (.word (by decide))).number offset

theorem trailing_separatePagination (asked : (fetch.isSome || offset.isSome) = true) :
    Trailing (postgres.pagination fetch offset true) := by
  have limited (count : Nat) : Trailing (" limit " ++ count.repr) :=
    (Trailing.word (by decide)).number count
  have skipped (count : Nat) : Trailing (" offset " ++ count.repr) :=
    (Trailing.word (by decide)).number count
  cases fetch with
  | none =>
      cases offset with
      | none => cases asked
      | some offset => exact (skipped offset).behind
  | some fetch =>
      cases offset with
      | none => exact (limited fetch).append (.word (by decide))
      | some offset => exact (limited fetch).append (skipped offset).composed

/-- SQL Server writes an offset in any case, behind an order of some kind. -/
theorem trailing_orderedPagination (ordered : Bool)
    (asked : (fetch.isSome || offset.isSome) = true) :
    Trailing (sqlserver.pagination fetch offset ordered) := by
  have sorted : Trailing ((if ordered then "" else " order by (select null)") ++
      " offset " ++ (offset.getD 0).repr ++ " rows") := by
    refine .append (.number ?_ _) (.word (by decide))
    cases ordered with
    | false => exact (Trailing.word (by decide)).append (.word (by decide))
    | true => exact (Trailing.word (by decide)).behind
  have given : (fetch.isNone && offset.isNone) = false := by
    cases fetch with
    | none =>
        cases offset with
        | none => cases asked
        | some _ => rfl
    | some _ => rfl
  simp only [pagination, given]
  cases fetch with
  | none => exact sorted.append (.word (by decide))
  | some count =>
      exact sorted.append (((Composed.word (by decide)).append (.number count)).append
        (.word (by decide)))

/-- A window of rows is asked for by numbers and fixed text, behind a blank. -/
theorem trailing_pagination (dialect : Dialect) (ordered : Bool)
    (asked : (fetch.isSome || offset.isSome) = true) :
    Trailing (dialect.pagination fetch offset ordered) := by
  cases dialect with
  | ansi | oracle | db2 | derby => exact trailing_standardPagination asked
  | mysql =>
      have unbounded : Trailing " limit 18446744073709551615" := .word (by decide)
      exact trailing_limitedPagination unbounded asked
  | sqlite =>
      have unbounded : Trailing " limit -1" := .word (by decide)
      exact trailing_limitedPagination unbounded asked
  | postgres => exact trailing_separatePagination asked
  | sqlserver => exact trailing_orderedPagination ordered asked

theorem trailing_isolation {dialect : Dialect} {level : IsolationLevel} {suffix : String}
    (known : dialect.isolation? level = some suffix) : Trailing suffix := by
  cases dialect <;> cases level <;> cases known <;> exact .word (by decide)

theorem trailing_locks {dialect : Dialect} {level : Option IsolationLevel} {lock : LockLevel}
    {suffix : String} (known : dialect.locks? level lock = some suffix) : Trailing suffix := by
  have ofKept (kept : String) (harmless : Harmless kept) :
      Trailing (" for read only with " ++ kept ++ " use and keep " ++ lock.name ++ " locks") := by
    have named : Harmless lock.name := by cases lock <;> decide
    exact ((((Trailing.word (by decide)).append (.fixed harmless)).append
      (.word (by decide))).append (.fixed named)).append (.word (by decide))
  cases dialect with
  | ansi | sqlite | sqlserver => cases known
  | postgres | mysql | oracle =>
      cases lock <;> cases known <;> exact .word (by decide)
  | db2 | derby =>
      cases known
      exact ofKept _ (by split <;> decide)

end Dialect

end SqlSelect
