import SqlSelect.Proofs.Closure.Invariant
import SqlSelect.Proofs.Closure.Part

/-!
# Window lists that a dialect does not write

A dialect may have no PARTITION BY or no ORDER BY inside a window.  Such a list is left out
of the text, with all that is in it.  Erasure empties it in the tree instead, at every depth,
and changes nothing else; what is prepared for a statement is what is prepared for its erasure.
-/

namespace SqlSelect

section Erase

variable (clauses : WindowClauses)

mutual

/-- An expression whose windows keep only the lists of some clauses. -/
def Expr.erase : Expr → Expr
  | .argument value => .argument value
  | .literal value => .literal value
  | .column reference => .column reference
  | .not operand => .not operand.erase
  | .negate operand => .negate operand.erase
  | .binary operator left right => .binary operator left.erase right.erase
  | .between negated operand low high => .between negated operand.erase low.erase high.erase
  | .like negated operand pattern => .like negated operand.erase pattern.erase
  | .inList negated operand items => .inList negated operand.erase (Expr.listErase items)
  | .inQuery negated operand query => .inQuery negated operand.erase query.erase
  | .exists negated query => .exists negated query.erase
  | .isNull negated operand => .isNull negated operand.erase
  | .call function distinct arguments => .call function distinct (Expr.listErase arguments)
  | .countAll => .countAll
  | .cast operand type => .cast operand.erase type
  | .window function arguments partition order =>
    .window function (Expr.listErase arguments)
      (if clauses.partition then Expr.listErase partition else [])
      (if clauses.order then Expr.orderErase order else [])
  | .subquery query => .subquery query.erase
  | .case branches otherwise =>
    .case (Expr.branchErase branches) (Expr.optionErase otherwise)

/-- The expressions of a list, with their windows erased. -/
def Expr.listErase : List Expr → List Expr
  | [] => []
  | expr :: rest => expr.erase :: Expr.listErase rest

/-- The entries of an ORDER BY list, with their windows erased. -/
def Expr.orderErase : List (OrderItem Expr) → List (OrderItem Expr)
  | [] => []
  | ⟨expr, descending⟩ :: rest => ⟨expr.erase, descending⟩ :: Expr.orderErase rest

/-- The branches of a CASE, with their windows erased. -/
def Expr.branchErase : List (Branch Expr) → List (Branch Expr)
  | [] => []
  | ⟨condition, result⟩ :: rest => ⟨condition.erase, result.erase⟩ :: Expr.branchErase rest

/-- An expression that may be missing, with its windows erased. -/
def Expr.optionErase : Option Expr → Option Expr
  | none => none
  | some expr => some expr.erase

/-- A source whose query, if it has one, has its windows erased. -/
def Source.erase : Source → Source
  | ⟨handle, .table⟩ => ⟨handle, .table⟩
  | ⟨handle, .temporary⟩ => ⟨handle, .temporary⟩
  | ⟨handle, .derived query⟩ => ⟨handle, .derived query.erase⟩
  | ⟨handle, .common query⟩ => ⟨handle, .common query.erase⟩

/-- The joins of a FROM tree, with their windows erased. -/
def Query.joinErase : List Join → List Join
  | [] => []
  | ⟨kind, source, on⟩ :: rest =>
    ⟨kind, source.erase, Expr.optionErase on⟩ :: Query.joinErase rest

/-- The entries of a SELECT list, with their windows erased. -/
def Query.projectionErase : List Projection → List Projection
  | [] => []
  | ⟨expr, label⟩ :: rest => ⟨expr.erase, label⟩ :: Query.projectionErase rest

/-- The queries combined with a query, with their windows erased. -/
def Query.operandErase : List Operand → List Operand
  | [] => []
  | ⟨operator, query⟩ :: rest => ⟨operator, query.erase⟩ :: Query.operandErase rest

/-- A query whose windows, at any depth, keep only the lists of some clauses. -/
def Query.erase : Query → Query
  | { distinct, projection, source, joins, filter, groupBy, having, operands, orderBy
      fetchFirst, offset, isolation, lock } =>
    { distinct, projection := Query.projectionErase projection, source := source.erase
      joins := Query.joinErase joins, filter := Expr.optionErase filter
      groupBy := Expr.listErase groupBy, having := Expr.optionErase having
      operands := Query.operandErase operands, orderBy := Expr.orderErase orderBy
      fetchFirst, offset, isolation, lock }

end

end Erase

/-- A statement without the window lists that its dialect does not write. -/
def Select.erased (select : Select) : Select :=
  { select with query := select.query.erase select.scope.database.dialect.windowClauses }

variable {clauses : WindowClauses}

/-! ## What erasure keeps -/

namespace Expr

theorem listErase_eq (exprs : List Expr) : listErase clauses exprs = exprs.map (erase clauses) := by
  induction exprs with
  | nil => rfl
  | cons expr rest ih => rw [listErase, ih, List.map_cons]

theorem orderErase_eq (items : List (OrderItem Expr)) :
    orderErase clauses items =
      items.map fun item => ⟨item.expr.erase clauses, item.descending⟩ := by
  induction items with
  | nil => rfl
  | cons item rest ih => rw [orderErase, ih, List.map_cons]

theorem branchErase_eq (branches : List (Branch Expr)) :
    branchErase clauses branches =
      branches.map fun branch => ⟨branch.condition.erase clauses, branch.result.erase clauses⟩ := by
  induction branches with
  | nil => rfl
  | cons branch rest ih => rw [branchErase, ih, List.map_cons]

theorem optionErase_eq (expr : Option Expr) :
    optionErase clauses expr = expr.map (erase clauses) := by
  cases expr <;> rfl

@[simp] theorem isEmpty_listErase (exprs : List Expr) :
    (listErase clauses exprs).isEmpty = exprs.isEmpty := by
  cases exprs <;> rfl

@[simp] theorem isEmpty_orderErase (items : List (OrderItem Expr)) :
    (orderErase clauses items).isEmpty = items.isEmpty := by
  cases items <;> rfl

@[simp] theorem precedence_erase (dialect : Dialect) (expr : Expr) :
    (expr.erase clauses).precedence dialect = expr.precedence dialect := by
  cases expr with
  | binary operator _ _ => cases operator <;> rfl
  | _ => rfl

@[simp] theorem placed_erase (database : Database) (required : Precedence) (strict : Bool)
    (expr : Expr) (body : List Lexeme) :
    (expr.erase clauses).placed database required strict body =
      expr.placed database required strict body := by
  rw [placed, needsGroup, precedence_erase, placed, needsGroup]

@[simp] theorem defaultLabel_erase (position : Nat) (expr : Expr) :
    (expr.erase clauses).defaultLabel position = expr.defaultLabel position := by
  cases expr <;> rfl

end Expr

@[simp] theorem Source.alias_erase (source : Source) :
    (source.erase clauses).alias = source.alias := by
  cases source with
  | mk _ relation => cases relation <;> rfl

namespace Query

theorem joinErase_eq (joins : List Join) :
    joinErase clauses joins = joins.map fun join =>
      ⟨join.kind, join.source.erase clauses, Expr.optionErase clauses join.on⟩ := by
  induction joins with
  | nil => rfl
  | cons join rest ih =>
      rw [List.map_cons, ← ih]
      cases join
      rfl

theorem projectionErase_eq (projections : List Projection) :
    projectionErase clauses projections = projections.map fun projection =>
      ⟨projection.expr.erase clauses, projection.label⟩ := by
  induction projections with
  | nil => rfl
  | cons projection rest ih =>
      rw [List.map_cons, ← ih]
      cases projection
      rfl

theorem operandErase_eq (operands : List Operand) :
    operandErase clauses operands = operands.map fun operand =>
      ⟨operand.operator, operand.query.erase clauses⟩ := by
  induction operands with
  | nil => rfl
  | cons operand rest ih =>
      rw [List.map_cons, ← ih]
      cases operand
      rfl

@[simp] theorem isEmpty_projectionErase (projections : List Projection) :
    (projectionErase clauses projections).isEmpty = projections.isEmpty := by
  rw [projectionErase_eq, List.isEmpty_map]

@[simp] theorem map_alias_joinErase (joins : List Join) :
    (joinErase clauses joins).map (·.source.alias) = joins.map (·.source.alias) := by
  simp [joinErase_eq, Function.comp_def]

end Query

/-! ## Writing what is erased -/

section Writing

variable (database : Database)

mutual

theorem Expr.lexemes_erase (expr : Expr) :
    (expr.erase database.dialect.windowClauses).lexemes database = expr.lexemes database := by
  cases expr with
  | argument _ | literal _ | column _ | countAll => rfl
  | not operand =>
      rw [Expr.erase, Expr.lexemes, Expr.placed_erase, operand.lexemes_erase, Expr.lexemes]
  | negate operand =>
      rw [Expr.erase, Expr.lexemes, Expr.placed_erase, operand.lexemes_erase, Expr.lexemes]
  | binary operator left right =>
      simp only [Expr.erase, Expr.lexemes, Expr.placed_erase, left.lexemes_erase,
        right.lexemes_erase]
  | between negated operand low high =>
      simp only [Expr.erase, Expr.lexemes, Expr.placed_erase, operand.lexemes_erase,
        low.lexemes_erase, high.lexemes_erase]
  | like negated operand pattern =>
      simp only [Expr.erase, Expr.lexemes, Expr.placed_erase, operand.lexemes_erase,
        pattern.lexemes_erase]
  | inList negated operand items =>
      simp only [Expr.erase, Expr.lexemes, Expr.placed_erase, operand.lexemes_erase,
        Expr.listLexemes_erase items]
  | inQuery negated operand query =>
      simp only [Expr.erase, Expr.lexemes, Expr.placed_erase, operand.lexemes_erase,
        query.lexemes_erase]
  | «exists» negated query => rw [Expr.erase, Expr.lexemes, query.lexemes_erase, Expr.lexemes]
  | isNull negated operand =>
      simp only [Expr.erase, Expr.lexemes, Expr.placed_erase, operand.lexemes_erase]
  | call function distinct arguments =>
      rw [Expr.erase, Expr.lexemes, Expr.listLexemes_erase arguments, Expr.lexemes]
  | cast operand type => rw [Expr.erase, Expr.lexemes, operand.lexemes_erase, Expr.lexemes]
  | window function arguments partition order =>
      have argumentsWritten := Expr.listLexemes_erase arguments
      have partitionWritten := Expr.listLexemes_erase partition
      have orderWritten := Expr.orderLexemes_erase order
      cases partitions : database.dialect.supportsPartition <;>
        cases orders : database.dialect.supportsWindowOrder <;>
        simp_all [Expr.erase, Expr.lexemes, Dialect.windowClauses]
  | subquery query => rw [Expr.erase, Expr.lexemes, query.lexemes_erase, Expr.lexemes]
  | case branches otherwise =>
      rw [Expr.erase, Expr.lexemes, Expr.branchLexemes_erase branches,
        Expr.optionLexemes_erase otherwise, Expr.lexemes]

theorem Expr.listLexemes_erase (exprs : List Expr) :
    Expr.listLexemes database (Expr.listErase database.dialect.windowClauses exprs) =
      Expr.listLexemes database exprs := by
  match exprs with
  | [] => rfl
  | expr :: rest =>
      rw [Expr.listErase, Expr.listLexemes, expr.lexemes_erase, Expr.listLexemes_erase rest,
        Expr.listLexemes]

theorem Expr.orderLexemes_erase (items : List (OrderItem Expr)) :
    Expr.orderLexemes database (Expr.orderErase database.dialect.windowClauses items) =
      Expr.orderLexemes database items := by
  match items with
  | [] => rfl
  | ⟨expr, descending⟩ :: rest =>
      rw [Expr.orderErase, Expr.orderLexemes, expr.lexemes_erase, Expr.orderLexemes_erase rest,
        Expr.orderLexemes]

theorem Expr.branchLexemes_erase (branches : List (Branch Expr)) :
    Expr.branchLexemes database (Expr.branchErase database.dialect.windowClauses branches) =
      Expr.branchLexemes database branches := by
  match branches with
  | [] => rfl
  | ⟨condition, result⟩ :: rest =>
      rw [Expr.branchErase, Expr.branchLexemes, condition.lexemes_erase, result.lexemes_erase,
        Expr.branchLexemes_erase rest, Expr.branchLexemes]

theorem Expr.optionLexemes_erase (expr : Option Expr) :
    Expr.optionLexemes database (Expr.optionErase database.dialect.windowClauses expr) =
      Expr.optionLexemes database expr := by
  match expr with
  | none => rfl
  | some expr => rw [Expr.optionErase, Expr.optionLexemes, expr.lexemes_erase, Expr.optionLexemes]

theorem Source.lexemes_erase (source : Source) :
    (source.erase database.dialect.windowClauses).lexemes database = source.lexemes database := by
  match source with
  | ⟨_, .table⟩ | ⟨_, .temporary⟩ => rfl
  | ⟨handle, .derived query⟩ | ⟨handle, .common query⟩ =>
      rw [Source.erase, Source.lexemes, query.lexemes_erase, Source.lexemes]

theorem Query.joinLexemes_erase (joins : List Join) :
    Query.joinLexemes database (Query.joinErase database.dialect.windowClauses joins) =
      Query.joinLexemes database joins := by
  match joins with
  | [] => rfl
  | ⟨kind, source, on⟩ :: rest =>
      rw [Query.joinErase, Query.joinLexemes, source.lexemes_erase, Expr.optionLexemes_erase on,
        Query.joinLexemes_erase rest, Query.joinLexemes]

theorem Query.projectionLexemes_erase (position : Nat) (projections : List Projection) :
    Query.projectionLexemes database position
        (Query.projectionErase database.dialect.windowClauses projections) =
      Query.projectionLexemes database position projections := by
  match projections with
  | [] => rfl
  | ⟨expr, label⟩ :: rest =>
      rw [Query.projectionErase, Query.projectionLexemes, expr.lexemes_erase,
        Projection.labelLexemes, Expr.defaultLabel_erase,
        Query.projectionLexemes_erase (position + 1) rest, Query.projectionLexemes,
        Projection.labelLexemes]

theorem Query.operandLexemes_erase (operands : List Operand) :
    Query.operandLexemes database (Query.operandErase database.dialect.windowClauses operands) =
      Query.operandLexemes database operands := by
  match operands with
  | [] => rfl
  | ⟨operator, query⟩ :: rest =>
      rw [Query.operandErase, Query.operandLexemes, query.lexemes_erase,
        Query.operandLexemes_erase rest, Query.operandLexemes]

/-- What is erased is written as it was. -/
theorem Query.lexemes_erase (query : Query) :
    (query.erase database.dialect.windowClauses).lexemes database = query.lexemes database := by
  match query with
  | { distinct, projection, source, joins, filter, groupBy, having, operands, orderBy
      fetchFirst, offset, isolation, lock } =>
      simp only [Query.erase, Query.lexemes, Query.isEmpty_projectionErase, Source.alias_erase,
        Query.map_alias_joinErase,
        Expr.isEmpty_orderErase, Query.projectionLexemes_erase 1 projection, source.lexemes_erase,
        Query.joinLexemes_erase joins, Expr.optionLexemes_erase filter,
        Expr.listLexemes_erase groupBy, Expr.optionLexemes_erase having,
        Query.operandLexemes_erase operands, Expr.orderLexemes_erase orderBy]

end

end Writing

/-! ## What is left -/

/-- A window has none of the lists that some clauses leave out. -/
def Expr.Bare (clauses : WindowClauses) : Expr → Prop
  | .window _ _ partition order =>
    (clauses.partition = false → partition = []) ∧ (clauses.order = false → order = [])
  | _ => True

/-- No window of a query, outside its sub-queries, has a list that some clauses leave out. -/
def Query.Bare (clauses : WindowClauses) (query : Query) : Prop :=
  ∀ expr ∈ query.exprs, ∀ part, expr.Contains .all part → part.Bare clauses

namespace Expr

theorem bare_erase (expr : Expr) : (expr.erase clauses).Bare clauses := by
  cases expr with
  | window _ _ _ _ => exact ⟨fun absent => by simp [absent], fun absent => by simp [absent]⟩
  | _ => trivial

/-- The parts that are left are the written ones. -/
theorem parts_erase (expr : Expr) :
    (expr.erase clauses).parts .all = (expr.parts clauses).map (erase clauses) := by
  cases expr with
  | window _ arguments partition order =>
      simp only [erase, parts, WindowClauses.all, if_true, listErase_eq, orderErase_eq,
        List.map_append]
      split <;> split <;> simp [Function.comp_def]
  | case branches otherwise =>
      simp [erase, parts, branchErase_eq, optionErase_eq, Branch.both, List.flatMap_map,
        List.map_flatMap, Option.toList_map]
  | _ => simp [erase, parts, listErase_eq]

theorem query?_erase (expr : Expr) :
    (expr.erase clauses).query? = expr.query?.map (Query.erase clauses) := by
  cases expr <;> rfl

theorem contains_erase {expr part : Expr} (contains : (expr.erase clauses).Contains .all part) :
    ∃ original : Expr, part = original.erase clauses := by
  induction contains with
  | self => exact ⟨expr, rfl⟩
  | part _ member ih =>
      obtain ⟨middle, rfl⟩ := ih
      rw [parts_erase] at member
      obtain ⟨original, _, rfl⟩ := List.mem_map.mp member
      exact ⟨original, rfl⟩

theorem query_leaf_erase {expr : Expr} {nested : Query}
    (leaf : .query nested ∈ (expr.erase clauses).leaves) :
    ∃ original, nested = Query.erase clauses original := by
  induction expr using induction_on_parts with
  | step expr ih =>
      rcases mem_leaves_iff.mp leaf with ⟨_, _, own⟩ | ⟨_, holds, own⟩ | ⟨part, member, leaf⟩
      · cases own
      · cases own
        rw [query?_erase] at holds
        obtain ⟨original, _, rfl⟩ := Option.map_eq_some_iff.mp holds
        exact ⟨original, rfl⟩
      · rw [parts_erase] at member
        obtain ⟨original, known, rfl⟩ := List.mem_map.mp member
        exact ih original (mem_parts_all known) leaf

end Expr

namespace Query

theorem exprs_erase (query : Query) :
    (query.erase clauses).exprs = query.exprs.map (Expr.erase clauses) := by
  cases query with
  | mk =>
      simp [erase, exprs, projectionErase_eq, joinErase_eq, Expr.optionErase_eq,
        Expr.listErase_eq, Expr.orderErase_eq, List.filterMap_map, List.map_filterMap,
        Option.toList_map, Function.comp_def]

theorem sources_erase (query : Query) :
    (query.erase clauses).sources = query.sources.map (Source.erase clauses) := by
  cases query with
  | mk => simp [erase, sources, joinErase_eq, Function.comp_def]

theorem bare_erase (query : Query) : (query.erase clauses).Bare clauses := by
  intro expr member part contains
  rw [exprs_erase] at member
  obtain ⟨original, _, rfl⟩ := List.mem_map.mp member
  obtain ⟨written, rfl⟩ := Expr.contains_erase contains
  exact written.bare_erase

/-- What stands directly within an erased query is erased as well. -/
theorem nests_erase {query nested : Query} (nests : (query.erase clauses).Nests nested) :
    ∃ original, nested = erase clauses original := by
  cases nests with
  | inExpr member leaf =>
      rw [exprs_erase] at member
      obtain ⟨expr, _, rfl⟩ := List.mem_map.mp member
      exact Expr.query_leaf_erase leaf
  | behind member behind =>
      rw [sources_erase] at member
      obtain ⟨⟨handle, relation⟩, _, rfl⟩ := List.mem_map.mp member
      cases relation with
      | table | temporary => cases behind
      | derived query | common query =>
          cases behind
          exact ⟨query, rfl⟩
  | operand member =>
      cases query with
      | mk =>
          rw [erase, operandErase_eq] at member
          obtain ⟨operand, _, rfl⟩ := List.mem_map.mp member
          exact ⟨operand.query, rfl⟩

theorem holds_erase {query nested : Query} (holds : (query.erase clauses).Holds nested) :
    ∃ original, nested = erase clauses original := by
  induction holds with
  | direct nests => exact nests_erase nests
  | within _ nests ih =>
      obtain ⟨middle, rfl⟩ := ih
      exact nests_erase nests

end Query

/-! ## What erasure leaves alone -/

theorem map_of_forall_mem {α : Type} {items : List α} {change : α → α}
    (fixed : ∀ item ∈ items, change item = item) : items.map change = items :=
  (List.map_congr_left fixed).trans (List.map_id items)

namespace Expr

theorem listErase_of_mem {exprs : List Expr}
    (fixed : ∀ expr ∈ exprs, expr.erase clauses = expr) : listErase clauses exprs = exprs := by
  rw [listErase_eq, map_of_forall_mem fixed]

theorem orderErase_of_mem {items : List (OrderItem Expr)}
    (fixed : ∀ expr ∈ items.map OrderItem.expr, expr.erase clauses = expr) :
    orderErase clauses items = items := by
  rw [orderErase_eq]
  apply map_of_forall_mem
  intro item member
  rw [fixed item.expr (List.mem_map_of_mem member)]

theorem branchErase_of_mem {branches : List (Branch Expr)}
    (fixed : ∀ expr ∈ branches.flatMap Branch.both, expr.erase clauses = expr) :
    branchErase clauses branches = branches := by
  rw [branchErase_eq]
  apply map_of_forall_mem
  intro branch member
  have condition := fixed branch.condition
    (List.mem_flatMap.mpr ⟨branch, member, by simp [Branch.both]⟩)
  have result := fixed branch.result
    (List.mem_flatMap.mpr ⟨branch, member, by simp [Branch.both]⟩)
  rw [condition, result]

theorem optionErase_of_mem {expr : Option Expr}
    (fixed : ∀ inner ∈ expr.toList, inner.erase clauses = inner) :
    optionErase clauses expr = expr := by
  cases expr with
  | none => rfl
  | some inner => rw [optionErase, fixed inner (List.mem_singleton.mpr rfl)]

/-- An expression without such a list is left alone if its parts and its query are. -/
theorem erase_of_parts {expr : Expr} (bare : expr.Bare clauses)
    (fixed : ∀ part ∈ expr.parts .all, part.erase clauses = part)
    (held : ∀ nested, expr.query? = some nested → nested.erase clauses = nested) :
    expr.erase clauses = expr := by
  cases expr with
  | argument _ | literal _ | column _ | countAll => rfl
  | not operand | negate operand | isNull _ operand | cast operand _ =>
      rw [erase, fixed operand (List.mem_singleton.mpr rfl)]
  | binary _ left right | like _ left right =>
      rw [erase, fixed left (by simp [parts]), fixed right (by simp [parts])]
  | between _ operand low high =>
      rw [erase, fixed operand (by simp [parts]), fixed low (by simp [parts]),
        fixed high (by simp [parts])]
  | inList _ operand items =>
      obtain ⟨own, others⟩ := List.forall_mem_cons.mp fixed
      rw [erase, own, listErase_of_mem others]
  | inQuery _ operand query =>
      rw [erase, fixed operand (List.mem_singleton.mpr rfl), held query rfl]
  | «exists» _ query | subquery query => rw [erase, held query rfl]
  | call _ _ arguments =>
      have called : listErase clauses arguments = arguments := listErase_of_mem fixed
      rw [erase, called]
  | window _ arguments partition order =>
      obtain ⟨lists, ordered⟩ := List.forall_mem_append.mp fixed
      obtain ⟨called, partitioned⟩ := List.forall_mem_append.mp lists
      have partitionFixed : listErase clauses partition = partition :=
        listErase_of_mem partitioned
      have orderFixed : orderErase clauses order = order := orderErase_of_mem ordered
      obtain ⟨unpartitioned, unordered⟩ := bare
      rw [erase, listErase_of_mem called, partitionFixed, orderFixed]
      cases partitions : clauses.partition <;> cases orders : clauses.order <;>
        simp_all only [forall_const, if_true, if_false, Bool.false_eq_true]
  | case branches otherwise =>
      obtain ⟨written, absent⟩ := List.forall_mem_append.mp fixed
      rw [erase, branchErase_of_mem written, optionErase_of_mem absent]

theorem erase_of_bare {expr : Expr} (bare : ∀ part, expr.Contains .all part → part.Bare clauses)
    (held : ∀ nested, .query nested ∈ expr.leaves → nested.erase clauses = nested) :
    expr.erase clauses = expr := by
  induction expr using induction_on_parts with
  | step expr ih =>
      apply erase_of_parts (bare expr .self)
      · intro part member
        apply ih part member
        · exact fun inner contains => bare inner ((Contains.self.part member).trans contains)
        · exact fun nested leaf => held nested (mem_leaves_iff.mpr (.inr (.inr ⟨_, member, leaf⟩)))
      · exact fun nested holds => held nested (mem_leaves_iff.mpr (.inr (.inl ⟨_, holds, rfl⟩)))

end Expr

namespace Query

theorem source_erase_of_query {source : Source}
    (fixed : ∀ nested, source.relation.query? = some nested → nested.erase clauses = nested) :
    source.erase clauses = source := by
  cases source with
  | mk _ relation =>
      cases relation with
      | table | temporary => rfl
      | derived query | common query => rw [Source.erase, fixed query rfl]

/-- A query is left alone if its expressions, its sources and its operands are. -/
theorem erase_of_clauses {query : Query} (exprs : ∀ expr ∈ query.exprs, expr.erase clauses = expr)
    (sources : ∀ source ∈ query.sources, source.erase clauses = source)
    (operands : ∀ operand ∈ query.operands, operand.query.erase clauses = operand.query) :
    query.erase clauses = query := by
  cases query with
  | mk distinct projection source joins filter groupBy having united orderBy fetchFirst offset
      isolation lock =>
      simp only [mem_exprs] at exprs
      have projected : projectionErase clauses projection = projection := by
        rw [projectionErase_eq]
        apply map_of_forall_mem
        rintro ⟨expr, label⟩ member
        rw [exprs expr (.inl ⟨_, member, rfl⟩)]
      have joined : joinErase clauses joins = joins := by
        rw [joinErase_eq]
        apply map_of_forall_mem
        rintro ⟨kind, joined, on⟩ member
        have condition : Expr.optionErase clauses on = on := by
          apply Expr.optionErase_of_mem
          intro expr known
          exact exprs expr (.inr (.inl ⟨_, member, Option.mem_toList.mp known⟩))
        have known : joined ∈ joins.map Join.source := List.mem_map.mpr ⟨_, member, rfl⟩
        rw [sources joined (List.mem_cons_of_mem _ known), condition]
      have combined : operandErase clauses united = united := by
        rw [operandErase_eq]
        apply map_of_forall_mem
        rintro ⟨operator, query⟩ member
        rw [operands ⟨operator, query⟩ member]
      rw [erase, projected, sources source List.mem_cons_self, joined, combined]
      rw [Expr.optionErase_of_mem, Expr.optionErase_of_mem, Expr.listErase_of_mem,
        Expr.orderErase_of_mem]
      all_goals grind

theorem Nests.holds {query middle nested : Query} (nests : query.Nests middle)
    (holds : middle.Holds nested) : query.Holds nested := by
  induction holds with
  | direct inner => exact .within (.direct nests) inner
  | within _ inner ih => exact .within ih inner

/-- A query without such a list at any depth is left alone. -/
theorem erase_of_bare {query : Query}
    (bare : ∀ nested, nested = query ∨ query.Holds nested → nested.Bare clauses) :
    query.erase clauses = query := by
  induction query using induction_on_nests with
  | step query ih =>
      have within (nested : Query) (nests : query.Nests nested) :
          nested.erase clauses = nested := by
        apply ih nested nests
        rintro inner (rfl | holds)
        · exact bare inner (.inr (.direct nests))
        · exact bare inner (.inr (nests.holds holds))
      apply erase_of_clauses
      · intro expr member
        apply Expr.erase_of_bare
        · exact bare query (.inl rfl) expr member
        · exact fun nested leaf => within nested (.inExpr member leaf)
      · intro source member
        apply source_erase_of_query
        exact fun nested behind => within nested (.behind member behind)
      · exact fun operand member => within operand.query (.operand member)

end Query

/-! ## Statements -/

namespace Select

/-- A statement is prepared as if the window lists that its dialect does not write were not
there. -/
structure DropsSilently (select : Select) : Prop where
  /-- The text and the arguments are the same, or else the error. -/
  prepare : select.prepare = select.erased.prepare
  /-- The same common tables are declared, each with the same definition. -/
  declared : ∀ database, database = select.scope.database →
    Lexeme.declareAll database.dialect [] (select.query.lexemes database) =
      Lexeme.declareAll database.dialect [] (select.erased.query.lexemes database)
  /-- At no depth is any such list left, whether in a sub-query, in the query behind an alias
  or in an operand. -/
  bare : ∀ nested, nested = select.erased.query ∨ select.erased.query.Holds nested →
    nested.Bare select.scope.database.dialect.windowClauses
  /-- A statement without such lists is left as it is, so that nothing else is dropped. -/
  kept : (∀ nested, nested = select.query ∨ select.query.Holds nested →
    nested.Bare select.scope.database.dialect.windowClauses) → select.erased = select
  /-- So statements that differ in such lists alone are prepared alike, whatever is in them. -/
  traceless : ∀ other : Select, other.failure = select.failure →
    other.scope.database = select.scope.database → other.erased.query = select.erased.query →
      other.prepare = select.prepare

theorem prepare_erased (select : Select) : select.erased.prepare = select.prepare := by
  have written := select.query.lexemes_erase select.scope.database
  cases fine : select.failure with
  | some _ =>
      simp only [Select.prepare, result, proceed, erased, fine]
      rfl
  | none =>
      simp only [Select.prepare, result, proceed, erased, fine, bind, Except.bind, pure,
        Except.pure, Query.prepare, written]

theorem drops_silently (select : Select) : select.DropsSilently := by
  constructor
  case prepare => exact select.prepare_erased.symm
  case declared =>
    rintro _ rfl
    rw [erased, Query.lexemes_erase]
  case bare =>
    rintro nested (rfl | holds)
    · exact Query.bare_erase _
    · obtain ⟨original, rfl⟩ := Query.holds_erase holds
      exact original.bare_erase
  case kept =>
    intro bare
    rw [erased, Query.erase_of_bare bare]
  case traceless =>
    intro other failure database same
    rw [← prepare_erased other, ← prepare_erased select]
    simp only [Select.prepare, result, proceed, same]
    simp only [erased, failure, database]

/-- Neither list is written here, and the value in one of them is not handed over. -/
example :
    ((Database.select ⟨.derby, none⟩ (.ofTable Sample.parent)).apply
      (.select (.window .rank [] [.value (.bigInt 7)]
        [⟨.column Sample.person Sample.key .any, false⟩]) none)).prepare =
      .ok ⟨"select rank() over () as c1 from PERSON as p", []⟩ := by
  rfl

end Select

end SqlSelect
