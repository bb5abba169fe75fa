import SqlSelect.Query.Lexeme

/-!
# Writing queries

The lexemes of expressions and queries, from left to right as they are written.
Parentheses are put only around a child that binds more loosely than its place
allows.  Window lists that the dialect does not know are left out; whatever else
it cannot express stands as a fault in its place.
-/

namespace SqlSelect

/-- The lexemes of a child in its place. -/
def Expr.placed (database : Database) (required : Precedence) (strict : Bool) (child : Expr)
    (body : List Lexeme) : List Lexeme :=
  Lexeme.grouped (child.needsGroup database.dialect required strict) body

/-- The label behind an entry of the SELECT list. -/
def Projection.labelLexemes (projection : Projection) (position : Nat) : List Lexeme :=
  match projection.label <|> projection.expr.defaultLabel position with
  | some label => [.word " as ", .word label]
  | none => []

/-- The name of a relation, behind the relation itself. -/
def Source.nameLexemes (database : Database) (handle : Alias) : List Lexeme :=
  match handle.name with
  | some name => [.word database.dialect.aliasSeparator, .word name]
  | none => []

/-- All columns of every source. -/
def Query.everyColumn (aliases : List Alias) : List Lexeme :=
  Lexeme.separated (aliases.map fun handle => [.word handle.displayName, .word ".*"])

/-- The pagination suffix, if any window was asked for. -/
def Query.paginationLexemes (database : Database) (fetchFirst offset : Option Nat)
    (ordered : Bool) : List Lexeme :=
  if fetchFirst.isSome || offset.isSome then
    [.word (database.dialect.pagination fetchFirst offset ordered)]
  else []

/-- The locking suffix.  A lock must be written; an isolation level alone may be
left out. -/
def Query.lockingLexemes (database : Database) (isolation : Option IsolationLevel)
    (lock : Option LockLevel) : List Lexeme :=
  match lock, isolation with
  | some lock, isolation =>
    match database.dialect.locks? isolation lock with
    | some suffix => [.word suffix]
    | none => [.fault (.unsupported database.dialect (.keptLocks lock))]
  | none, some level =>
    match database.dialect.isolation? level with
    | some suffix => [.word suffix]
    | none => []
  | none, none => []

/-- A clause behind its keyword, if it has any content. -/
def Query.clause (keyword : String) (items : List (List Lexeme)) : List Lexeme :=
  if items.isEmpty then [] else .word keyword :: Lexeme.separated items

/-- A condition behind its keyword, if there is one. -/
def Query.condition (keyword : String) (condition : Option (List Lexeme)) : List Lexeme :=
  match condition with
  | some body => .word keyword :: body
  | none => []

mutual

/-- The lexemes of an expression. -/
def Expr.lexemes (database : Database) : Expr → List Lexeme
  | .argument value => [.argument value]
  | .literal value => [if value.hasLiteral then .literal value else .argument value]
  | .column (.resolved resolved) => [.column resolved]
  | .column (.unresolved info _) => [.fault (.unresolvedReference info [])]
  | .not operand => .not :: operand.placed database .unary false (operand.lexemes database)
  | .negate operand => .minus :: operand.placed database .unary true (operand.lexemes database)
  | .binary operator left right =>
    if operator = .concat ∧ database.dialect.concatOperator? = none then
      .concat ::
        Lexeme.enclosed (left.lexemes database ++ .comma :: right.lexemes database)
    else
      left.placed database operator.precedence false (left.lexemes database) ++
        .operator operator ::
          right.placed database operator.precedence true (right.lexemes database)
  | .between negated operand low high =>
    operand.placed database .predicate true (operand.lexemes database) ++
      .between negated :: low.placed database .additive false (low.lexemes database) ++
        .operator .and :: high.placed database .additive false (high.lexemes database)
  | .like negated operand pattern =>
    operand.placed database .predicate true (operand.lexemes database) ++
      .like negated :: pattern.placed database .additive false (pattern.lexemes database)
  | .inList negated operand items =>
    operand.placed database .predicate true (operand.lexemes database) ++
      .isIn negated :: Lexeme.enclosed (Lexeme.separated (Expr.listLexemes database items))
  | .inQuery negated operand query =>
    operand.placed database .predicate true (operand.lexemes database) ++
      [.isIn negated, .query (query.lexemes database)]
  | .exists negated query => [.exists negated, .query (query.lexemes database)]
  | .isNull negated operand =>
    operand.placed database .predicate true (operand.lexemes database) ++ [.isNull negated]
  | .call function distinct arguments =>
    .function function ::
      Lexeme.enclosed ((if distinct then [.distinct] else []) ++
        Lexeme.separated (Expr.listLexemes database arguments))
  | .countAll => .function .count :: Lexeme.enclosed [.star]
  | .cast operand type =>
    .cast :: Lexeme.enclosed (operand.lexemes database ++ [.asType type])
  | .window function arguments partition order =>
    let partitioned := !partition.isEmpty && database.dialect.supportsPartition
    let ordered := !order.isEmpty && database.dialect.supportsWindowOrder
    if function = .rowNumber ∧ database.dialect.rowNumberNeedsOrder ∧ ordered = false then
      [.fault (.unsupported database.dialect .unorderedRowNumber)]
    else
      .function function ::
        Lexeme.enclosed (Lexeme.separated (Expr.listLexemes database arguments)) ++
        .over :: Lexeme.enclosed (
          (if partitioned then
            .partitionBy :: Lexeme.separated (Expr.listLexemes database partition) else []) ++
          (if ordered then
            .orderBy partitioned :: Lexeme.separated (Expr.orderLexemes database order) else []))
  | .subquery query => [.query (query.lexemes database)]
  | .case branches otherwise =>
    .case :: Expr.branchLexemes database branches ++
      (match Expr.optionLexemes database otherwise with
        | some body => .otherwise :: body
        | none => []) ++ [.endCase]

/-- The lexemes of each expression of a list. -/
def Expr.listLexemes (database : Database) : List Expr → List (List Lexeme)
  | [] => []
  | expr :: rest => expr.lexemes database :: Expr.listLexemes database rest

/-- The lexemes of each entry of an ORDER BY list. -/
def Expr.orderLexemes (database : Database) : List (OrderItem Expr) → List (List Lexeme)
  | [] => []
  | ⟨expr, descending⟩ :: rest =>
    (expr.lexemes database ++ if descending then [.descending] else []) ::
      Expr.orderLexemes database rest

/-- The lexemes of the branches of a CASE. -/
def Expr.branchLexemes (database : Database) : List (Branch Expr) → List Lexeme
  | [] => []
  | ⟨condition, result⟩ :: rest =>
    .when :: condition.lexemes database ++ .thenResult :: result.lexemes database ++
      Expr.branchLexemes database rest

/-- The lexemes of an expression that may be missing. -/
def Expr.optionLexemes (database : Database) : Option Expr → Option (List Lexeme)
  | none => none
  | some expr => some (expr.lexemes database)

/-- The lexemes of a relation in a FROM tree, with its name. -/
def Source.lexemes (database : Database) : Source → List Lexeme
  | ⟨handle, .table⟩ =>
    .word (database.tableName handle.table) :: Source.nameLexemes database handle
  | ⟨handle, .temporary⟩ =>
    (match database.dialect.temporaryName? handle.table.name with
      | some name => .word name
      | none => .fault (.unsupported database.dialect .temporaryTables)) ::
      Source.nameLexemes database handle
  | ⟨handle, .derived query⟩ =>
    .query (query.lexemes database) :: Source.nameLexemes database handle
  | ⟨handle, .common query⟩ => [.common handle fun _ => .query (query.lexemes database)]

/-- The lexemes of the joins of a FROM tree. -/
def Query.joinLexemes (database : Database) : List Join → List Lexeme
  | [] => []
  | ⟨kind, source, on⟩ :: rest =>
    .word kind.keyword :: source.lexemes database ++
      Query.condition " on " (Expr.optionLexemes database on) ++
        Query.joinLexemes database rest

/-- The lexemes of each entry of a SELECT list, the first of them at `position`. -/
def Query.projectionLexemes (database : Database) (position : Nat) :
    List Projection → List (List Lexeme)
  | [] => []
  | ⟨expr, label⟩ :: rest =>
    (expr.lexemes database ++ Projection.labelLexemes ⟨expr, label⟩ position) ::
      Query.projectionLexemes database (position + 1) rest

/-- The lexemes of the queries combined with a query. -/
def Query.operandLexemes (database : Database) : List Operand → List Lexeme
  | [] => []
  | ⟨operator, query⟩ :: rest =>
    .word operator.keyword :: query.lexemes database ++ Query.operandLexemes database rest

/-- The lexemes of a query, without parentheses around it. -/
def Query.lexemes (database : Database) : Query → List Lexeme
  | { distinct, projection, source, joins, filter, groupBy, having, operands, orderBy
      fetchFirst, offset, isolation, lock } =>
    .word (if distinct then "select distinct " else "select ") ::
      (if projection.isEmpty then
        Query.everyColumn (source.alias :: joins.map (·.source.alias))
      else Lexeme.separated (Query.projectionLexemes database 1 projection)) ++
      .word " from " :: source.lexemes database ++
      Query.joinLexemes database joins ++
      Query.condition " where " (Expr.optionLexemes database filter) ++
      Query.clause " group by " (Expr.listLexemes database groupBy) ++
      Query.condition " having " (Expr.optionLexemes database having) ++
      Query.operandLexemes database operands ++
      Query.clause " order by " (Expr.orderLexemes database orderBy) ++
      Query.paginationLexemes database fetchFirst offset (!orderBy.isEmpty) ++
      Query.lockingLexemes database isolation lock

end

end SqlSelect
