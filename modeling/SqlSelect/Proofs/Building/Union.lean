import SqlSelect.Proofs.Building.Tail
import SqlSelect.Proofs.Building.WellFormed

/-!
# Options of combined queries

The queries that are combined are written one behind another, without parentheses.  An order,
a pagination or a lock behind one of them would be read as that of all queries up to there.
No operand has any of these, so they stand behind the last operand alone, and there is one
way to read the whole: the queries are combined from the left, and what follows applies to
the rows of all of them.
-/

namespace SqlSelect

/-! ## Segments of a query -/

/-- What may follow combined queries. -/
inductive Suffix where
  | order (items : List (OrderItem Expr))
  | pagination (fetchFirst offset : Option Nat) (ordered : Bool)
  | locking (isolation : Option IsolationLevel) (lock : Option LockLevel)

/-- A stretch of the text of a query, outside parentheses. -/
inductive Segment where
  /-- The clauses of one query, as far as HAVING. -/
  | core (query : Query)
  | operator (operator : SetOperator)
  | suffix (suffix : Suffix)

/-- A query without its tail. -/
def Query.core (query : Query) : Query :=
  { query with
    operands := [], orderBy := [], fetchFirst := none, offset := none, isolation := none
    lock := none }

/-- The suffixes of a tail, without those that have nothing to say. -/
def Tail.suffixes (tail : Tail) : List Suffix :=
  (if tail.orderBy.isEmpty then [] else [.order tail.orderBy]) ++
    (if tail.fetchFirst.isSome || tail.offset.isSome then
      [.pagination tail.fetchFirst tail.offset (!tail.orderBy.isEmpty)] else []) ++
    (if tail.isolation.isSome || tail.lock.isSome then
      [.locking tail.isolation tail.lock] else [])

mutual

/-- The segments of a query in the order of its text. -/
def Query.segments : Query → List Segment
  | { distinct, projection, source, joins, filter, groupBy, having, operands, orderBy
      fetchFirst, offset, isolation, lock } =>
    .core { distinct, projection, source, joins, filter, groupBy, having, operands := []
            orderBy := [], fetchFirst := none, offset := none, isolation := none
            lock := none } ::
      Query.operandSegments operands ++
      (Tail.suffixes { operands, orderBy, fetchFirst, offset, isolation, lock }).map .suffix

/-- The segments of the queries combined with a query, with those of their own tails. -/
def Query.operandSegments : List Operand → List Segment
  | [] => []
  | ⟨operator, query⟩ :: rest =>
    .operator operator :: query.segments ++ Query.operandSegments rest

end

/-! ## The text of segments -/

/-- The lexemes of a suffix.  An order and a pagination are never left out. -/
def Suffix.lexemes (database : Database) : Suffix → List Lexeme
  | .order items => .word " order by " :: Lexeme.separated (Expr.orderLexemes database items)
  | .pagination fetchFirst offset ordered =>
    [.word (database.dialect.pagination fetchFirst offset ordered)]
  | .locking isolation lock => Query.lockingLexemes database isolation lock

/-- The lexemes of a segment. -/
def Segment.lexemes (database : Database) : Segment → List Lexeme
  | .core query => query.lexemes database
  | .operator combining => [.word combining.keyword]
  | .suffix behind => behind.lexemes database

theorem Query.segments_eq (query : Query) :
    query.segments =
      .core query.core :: operandSegments query.operands ++ query.tail.suffixes.map .suffix := by
  cases query
  rw [segments]
  rfl

theorem Query.operandSegments_eq (operands : List Operand) :
    operandSegments operands =
      operands.flatMap fun operand => .operator operand.operator :: operand.query.segments := by
  induction operands with
  | nil => rfl
  | cons operand rest ih =>
      cases operand
      rw [operandSegments, ih, List.flatMap_cons]

section Text

variable (database : Database)

theorem Tail.lexemes_suffixes (tail : Tail) :
    tail.suffixes.flatMap (Suffix.lexemes database) =
      Query.clause " order by " (Expr.orderLexemes database tail.orderBy) ++
        Query.paginationLexemes database tail.fetchFirst tail.offset (!tail.orderBy.isEmpty) ++
        Query.lockingLexemes database tail.isolation tail.lock := by
  cases tail with
  | mk operands orderBy fetchFirst offset isolation lock =>
      cases orderBy <;> cases fetchFirst <;> cases offset <;> cases isolation <;> cases lock <;>
        simp [suffixes, Suffix.lexemes, Query.clause, Expr.orderLexemes, Query.paginationLexemes,
          Query.lockingLexemes]

theorem Query.lexemes_core (query : Query) :
    query.lexemes database =
      query.core.lexemes database ++ operandLexemes database query.operands ++
        query.tail.suffixes.flatMap (Suffix.lexemes database) := by
  rw [Tail.lexemes_suffixes]
  cases query
  simp [lexemes, core, tail, operandLexemes, clause, Expr.orderLexemes, paginationLexemes,
    lockingLexemes]

mutual

/-- The text of a query is that of its segments. -/
theorem Query.lexemes_segments (query : Query) :
    query.lexemes database = query.segments.flatMap (Segment.lexemes database) := by
  match query with
  | { distinct, projection, source, joins, filter, groupBy, having, operands, orderBy
      fetchFirst, offset, isolation, lock } =>
      have operandsWritten := Query.operandLexemes_segments operands
      rw [Query.lexemes_core, Query.segments_eq]
      simp [operandsWritten, Segment.lexemes, List.flatMap_map]

theorem Query.operandLexemes_segments (operands : List Operand) :
    Query.operandLexemes database operands =
      (Query.operandSegments operands).flatMap (Segment.lexemes database) := by
  match operands with
  | [] => rfl
  | ⟨operator, query⟩ :: rest =>
      rw [Query.operandLexemes, Query.operandSegments, query.lexemes_segments,
        Query.operandLexemes_segments rest]
      simp [Segment.lexemes]

end

end Text

/-! ## Reading segments -/

/-- Queries that are combined, from the left. -/
inductive Combined where
  | single (query : Query)
  | combine (left : Combined) (operator : SetOperator) (right : Query)

/-- What segments mean: the combined queries, and what applies to the rows of all of them. -/
structure UnionReading where
  rows : Combined
  suffixes : List Suffix

/-- Queries with operators between them form combined queries. -/
inductive Combined.Forms : List Segment → Combined → Prop where
  | single (query : Query) : Forms [.core query] (.single query)
  | combine {segments : List Segment} {left : Combined} (operator : SetOperator) (right : Query) :
      Forms segments left →
      Forms (segments ++ [.operator operator, .core right]) (.combine left operator right)

/-- Segments are read as combined queries with suffixes behind them. -/
def UnionReading.Reads (segments : List Segment) (reading : UnionReading) : Prop :=
  ∃ body, reading.rows.Forms body ∧ segments = body ++ reading.suffixes.map .suffix

/-- Each operand is combined with all that is ahead of it. -/
def Query.combined (query : Query) : Combined :=
  query.operands.foldl (fun left operand => .combine left operand.operator operand.query)
    (.single query.core)

namespace Combined.Forms

/-- No suffix stands among combined queries. -/
theorem no_suffix {segments : List Segment} {combined : Combined} (forms : combined.Forms segments)
    (behind : Suffix) : .suffix behind ∉ segments := by
  induction forms with
  | single _ => simp
  | combine _ _ _ ih => simp [ih]

theorem unique {segments : List Segment} {first second : Combined} (forms : first.Forms segments)
    (others : second.Forms segments) : first = second := by
  induction forms generalizing second with
  | single query =>
      generalize same : [Segment.core query] = segments at others
      cases others with
      | single _ =>
          cases same
          rfl
      | combine _ _ _ =>
          have lengths := congrArg List.length same
          simp at lengths
  | @combine segments left operator right _ ih =>
      generalize same : segments ++ [.operator operator, .core right] = whole at others
      cases others with
      | single _ =>
          have lengths := congrArg List.length same
          simp at lengths
      | combine _ _ forms =>
          obtain ⟨rfl, last⟩ := List.append_inj' same rfl
          cases last
          rw [ih forms]

/-- Further operands are combined from the left. -/
theorem foldl {segments : List Segment} {left : Combined} (forms : left.Forms segments)
    (operands : List Operand) :
    (operands.foldl (fun left operand => .combine left operand.operator operand.query)
      left).Forms
      (segments ++
        operands.flatMap fun operand => [.operator operand.operator, .core operand.query]) := by
  induction operands generalizing segments left with
  | nil => simpa using forms
  | cons operand rest ih =>
      rw [List.flatMap_cons, ← List.append_assoc]
      exact ih (forms.combine operand.operator operand.query)

end Combined.Forms

/-- What stands ahead of suffixes, and the suffixes themselves, are told apart. -/
theorem Segment.append_suffixes_inj {first second : List Segment} {more others : List Suffix}
    (none : ∀ behind, .suffix behind ∉ first) (neither : ∀ behind, .suffix behind ∉ second)
    (same : first ++ more.map .suffix = second ++ others.map .suffix) :
    first = second ∧ more = others := by
  induction first generalizing second with
  | nil =>
      cases second with
      | nil =>
          exact ⟨rfl, (List.map_inj_right fun _ _ => Segment.suffix.inj).mp same⟩
      | cons segment rest =>
          have member : segment ∈ more.map Segment.suffix := by simp_all
          obtain ⟨behind, _, rfl⟩ := List.mem_map.mp member
          exact (neither behind List.mem_cons_self).elim
  | cons segment rest ih =>
      cases second with
      | nil =>
          have member : segment ∈ others.map Segment.suffix := by
            rw [List.nil_append] at same
            rw [← same]
            exact List.mem_cons_self
          obtain ⟨behind, _, rfl⟩ := List.mem_map.mp member
          exact (none behind List.mem_cons_self).elim
      | cons _ _ =>
          obtain ⟨rfl, behind⟩ := List.cons.inj same
          obtain ⟨rfl, rfl⟩ := ih (fun behind member => none behind (.tail _ member))
            (fun behind member => neither behind (.tail _ member)) behind
          exact ⟨rfl, rfl⟩

theorem UnionReading.Reads.unique {segments : List Segment} {first second : UnionReading}
    (reads : first.Reads segments) (others : second.Reads segments) : first = second := by
  obtain ⟨body, forms, rfl⟩ := reads
  obtain ⟨other, otherForms, same⟩ := others
  obtain ⟨rfl, suffixes⟩ :=
    Segment.append_suffixes_inj forms.no_suffix otherForms.no_suffix same
  cases first with
  | mk rows _ =>
      cases second with
      | mk _ _ =>
          cases suffixes
          cases forms.unique otherForms
          rfl

namespace Query

theorem core_of_tail {query : Query} (alone : query.tail = .empty) : query.core = query := by
  cases query
  cases alone
  rfl

theorem segments_of_tail {query : Query} (alone : query.tail = .empty) :
    query.segments = [.core query] := by
  have operands : query.operands = [] := congrArg Tail.operands alone
  rw [segments_eq, core_of_tail alone, alone, operands]
  rfl

variable {query : Query}

/-- Without tails of the operands, all suffixes stand behind the last operand. -/
theorem segments_of_operands (alone : ∀ operand ∈ query.operands, operand.query.tail = .empty) :
    query.segments =
      .core query.core ::
        (query.operands.flatMap fun operand =>
          [.operator operand.operator, .core operand.query]) ++
        query.tail.suffixes.map .suffix := by
  have operands : query.operands.map (fun operand =>
        .operator operand.operator :: operand.query.segments) =
      query.operands.map fun operand => [.operator operand.operator, .core operand.query] := by
    apply List.map_congr_left
    intro operand member
    rw [segments_of_tail (alone operand member)]
  rw [segments_eq, operandSegments_eq, List.flatMap_def, operands, List.flatMap_def]

theorem reads_segments (alone : ∀ operand ∈ query.operands, operand.query.tail = .empty) :
    UnionReading.Reads query.segments ⟨query.combined, query.tail.suffixes⟩ :=
  ⟨_, (Combined.Forms.single query.core).foldl query.operands, segments_of_operands alone⟩

/-- An option of the last operand would be read as one of the whole. -/
example (query : Query) (count : Nat) (alone : query.tail = .empty) :
    segments { query with operands := [⟨.union, { query with fetchFirst := some count }⟩] } =
      segments { query with operands := [⟨.union, query⟩], fetchFirst := some count } := by
  cases query
  cases alone
  rfl

/-- What follows a query and those that are combined with it belongs to all of them. -/
structure EndsWhole (query : Query) : Prop where
  /-- No operand is itself combined, ordered, limited or locked. -/
  alone : ∀ operand ∈ query.operands, operand.query.tail = .empty
  /-- Combined queries are not ordered. -/
  unordered : query.operands ≠ [] → query.orderBy = []
  /-- The text is that of the segments, in every database. -/
  written : ∀ database, query.lexemes database = query.segments.flatMap (Segment.lexemes database)
  /-- The suffixes stand behind the last operand. -/
  behind : query.segments =
    .core query.core ::
      (query.operands.flatMap fun operand =>
        [.operator operand.operator, .core operand.query]) ++
      query.tail.suffixes.map .suffix
  /-- The segments can be read, and in one way alone: the queries are combined from the left, and
  the suffixes apply to the rows of all of them. -/
  reads : ∀ reading : UnionReading,
    reading.Reads query.segments ↔ reading = ⟨query.combined, query.tail.suffixes⟩

theorem endsWhole (alone : ∀ operand ∈ query.operands, operand.query.tail = .empty)
    (apart : query.operands = [] ∨ query.orderBy = []) : query.EndsWhole := by
  have reads := reads_segments alone
  constructor
  case alone => exact alone
  case unordered => exact apart.resolve_left
  case written => exact fun database => query.lexemes_segments database
  case behind => exact segments_of_operands alone
  case reads =>
    intro reading
    constructor
    · exact fun other => other.unique reads
    · rintro rfl
      exact reads

end Query

/-! ## Statements -/

namespace Select

variable {origin : Select → Prop} {select : Select}

/-- Whatever becomes an operand has no tail. -/
theorem Built.operands_alone (origins : ∀ inner, origin inner → inner.Built origin)
    (built : select.Built origin) :
    ∀ operand ∈ select.query.operands, operand.query.tail = .empty := by
  induction built with
  | outermost _ _ | nested _ _ =>
      intro operand member
      cases member
  | @step select step built sourced ih =>
      intro operand member
      cases allowed : step.next? select.stage with
      | none =>
          rw [apply, allowed] at member
          exact ih operand member
      | some _ =>
          rcases mem_operands_apply member with old | ⟨other, rfl, finished⟩
          · exact ih operand old
          · simp only [Step.next?, Option.ite_none_right_eq_some, Bool.and_eq_true] at allowed
            obtain ⟨_, same⟩ := result_eq_ok finished
            rw [same]
            exact (Stage.trails_of_isAhead (Stage.isAhead_of_mayOrder allowed.1.2)).mp
              (origins other sourced).trails

theorem Built.endsWhole (origins : ∀ inner, origin inner → inner.Built origin)
    (built : select.Built origin) : select.query.EndsWhole :=
  Query.endsWhole (built.operands_alone origins) built.trails.apart

/-- The options of a statement, and of every query within it, are those of the whole union. -/
structure OptionsOfWhole (select : Select) : Prop where
  own : select.query.EndsWhole
  /-- At any depth: in a sub-query, in the query behind an alias, in an operand. -/
  nested : ∀ nested, select.query.Holds nested → nested.EndsWhole
  /-- The operands come in the order in which the unions are taken. -/
  taken : ∀ steps, Step.Legal select.stage steps → (select.run steps).failure = none →
    (select.run steps).query.operands =
      select.query.operands ++ steps.filterMap Step.operand?

/-- Options belong to the whole union, in every statement that is built by steps. -/
theorem Built.options_of_whole (origins : ∀ inner, origin inner → inner.Built origin)
    (built : select.Built origin) : select.OptionsOfWhole := by
  constructor
  case own => exact built.endsWhole origins
  case nested =>
    intro nested holds
    obtain ⟨inner, isOrigin, _, rfl⟩ := built.origin_of_holds origins holds
    exact (origins inner isOrigin).endsWhole origins
  case taken => exact fun _ legal fine => operands_run legal fine

end Select

/-! ## A union with an option -/

namespace Sample

/-- Everyone three times over, but three rows at most. -/
def thrice : Select :=
  everyone.run [.union .unionAll everyone, .union .union everyone, .fetchFirst 3]

theorem thrice_options :
    (∀ inner, inner = everyone → inner.Built (· = everyone)) ∧ thrice.Built (· = everyone) ∧
      thrice.OptionsOfWhole ∧
      thrice.text = .ok ("select p.* from PERSON as p union all select p.* from PERSON as p " ++
        "union select p.* from PERSON as p limit 3") := by
  have origins : ∀ inner, inner = everyone → inner.Built (· = everyone) := by
    rintro _ rfl
    exact .outermost ⟨.sqlite, none⟩ (Source.from_ofTable parent)
  have built : thrice.Built (· = everyone) := by
    apply (origins everyone rfl).run
    simp [Step.From]
  exact ⟨origins, built, built.options_of_whole origins, by rfl⟩

end Sample

end SqlSelect
