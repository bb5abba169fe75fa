import SqlSelect.Proofs.Prepared.Faithful
import SqlSelect.Proofs.Prepared.Walk

/-!
# What cannot be written

A part of a statement that a dialect cannot write stands as a fault among its symbols.  The
faults of a query are those of its own clauses and sources, and those of the queries within
it.  The query of a common table is held back; its faults count where the whole statement is
meant, with its WITH clause.
-/

namespace SqlSelect

theorem Piece.fault_of_check {pieces : List Piece} {error : QueryError}
    (fails : check pieces = .error error) : .fault error ∈ pieces := by
  induction pieces with
  | nil => cases fails
  | cons piece rest ih =>
      cases piece with
      | text _ | argument _ => exact List.mem_cons_of_mem _ (ih fails)
      | fault _ =>
          cases fails
          exact List.mem_cons_self

namespace Lexeme

mutual

/-- The faults of a symbol. -/
def faults (whole : Bool) : Lexeme → List QueryError
  | .query body => allFaults whole body
  | .common _ definition => if whole then (definition ()).faults whole else []
  | .fault error => [error]
  | _ => []

/-- The faults of some symbols, from left to right. -/
def allFaults (whole : Bool) : List Lexeme → List QueryError
  | [] => []
  | lexeme :: rest => lexeme.faults whole ++ allFaults whole rest

end

variable {whole : Bool} {dialect : Dialect}

@[simp] theorem allFaults_nil : allFaults whole [] = [] := rfl

@[simp] theorem allFaults_cons (lexeme : Lexeme) (rest : List Lexeme) :
    allFaults whole (lexeme :: rest) = lexeme.faults whole ++ allFaults whole rest := rfl

@[simp] theorem allFaults_append (left right : List Lexeme) :
    allFaults whole (left ++ right) = allFaults whole left ++ allFaults whole right := by
  induction left with
  | nil => rfl
  | cons lexeme rest ih => simp [ih]

theorem allFaults_eq : allFaults whole = List.flatMap (faults whole) := by
  funext lexemes
  induction lexemes with
  | nil => rfl
  | cons lexeme rest ih => rw [allFaults_cons, ih, List.flatMap_cons]

theorem faults_skipsGlue : SkipsGlue (faults whole) := by
  intro lexeme glue
  cases lexeme <;> first | rfl | simp [isGlue] at glue

/-! ## Faults of the pieces -/

mutual

theorem fault_mem_pieces (lexeme : Lexeme) {error : QueryError} :
    .fault error ∈ lexeme.pieces dialect ↔ error ∈ lexeme.faults false := by
  cases lexeme with
  | query body => simp [pieces, faults, fault_mem_allPieces body]
  | common _ _ | fault _ | argument _ => simp [pieces, faults]
  | _ => simp [pieces, faults]

theorem fault_mem_allPieces (lexemes : List Lexeme) {error : QueryError} :
    .fault error ∈ allPieces dialect lexemes ↔ error ∈ allFaults false lexemes := by
  cases lexemes with
  | nil => simp
  | cons lexeme rest => simp [fault_mem_pieces lexeme, fault_mem_allPieces rest]

end

mutual

theorem faults_whole (lexeme : Lexeme) {error : QueryError}
    (member : error ∈ lexeme.faults false) : error ∈ lexeme.faults whole := by
  cases lexeme with
  | query body => exact allFaults_whole body member
  | fault _ => exact member
  | _ => cases member

theorem allFaults_whole (lexemes : List Lexeme) {error : QueryError}
    (member : error ∈ allFaults false lexemes) : error ∈ allFaults whole lexemes := by
  cases lexemes with
  | nil => cases member
  | cons lexeme rest =>
      rcases List.mem_append.mp member with member | member
      · exact List.mem_append_left _ (faults_whole lexeme member)
      · exact List.mem_append_right _ (allFaults_whole rest member)

end

mutual

theorem fault_of_declare (lexeme : Lexeme) {declared : List CommonTable} {error : QueryError}
    (fails : lexeme.declare dialect declared = .error error) : error ∈ lexeme.faults true := by
  cases lexeme with
  | query body => exact fault_of_declareAll body fails
  | common handle definition =>
      rw [declare] at fails
      split at fails
      · cases fails
      · simp only [except_bind_error, except_pure_error, and_false, exists_false, or_false] at fails
        rcases fails with unchecked | ⟨_, _, undeclared⟩
        · have member := (fault_mem_pieces (definition ())).mp (Piece.fault_of_check unchecked)
          exact faults_whole (definition ()) member
        · exact fault_of_declare (definition ()) undeclared
  | _ => cases fails

theorem fault_of_declareAll (lexemes : List Lexeme) {declared : List CommonTable}
    {error : QueryError} (fails : declareAll dialect declared lexemes = .error error) :
    error ∈ allFaults true lexemes := by
  cases lexemes with
  | nil => cases fails
  | cons lexeme rest =>
      rw [declareAll, except_bind_error] at fails
      rcases fails with fails | ⟨_, _, fails⟩
      · exact List.mem_append_left _ (fault_of_declare lexeme fails)
      · exact List.mem_append_right _ (fault_of_declareAll rest fails)

end

/-- Symbols can be written if there is no fault among them. -/
theorem writable_iff {lexemes : List Lexeme} :
    Writable dialect lexemes ↔ allFaults false lexemes = [] := by
  constructor
  · intro writable
    apply List.eq_nil_iff_forall_not_mem.mpr
    intro error member
    exact Piece.not_fault_of_check writable error ((fault_mem_allPieces lexemes).mpr member)
  · intro none
    cases checked : Piece.check (allPieces dialect lexemes) with
    | ok _ => exact checked
    | error error =>
        have member := (fault_mem_allPieces lexemes).mp (Piece.fault_of_check checked)
        rw [none] at member
        cases member

/-! ## Faults of what is put together -/

@[simp] theorem allFaults_separated (items : List (List Lexeme)) :
    allFaults whole (separated items) = items.flatMap (allFaults whole) := by
  rw [allFaults_eq, faults_skipsGlue.flatMap_separated]

@[simp] theorem allFaults_clause (keyword : String) (items : List (List Lexeme)) :
    allFaults whole (Query.clause keyword items) = items.flatMap (allFaults whole) := by
  cases items <;> simp [Query.clause, faults]

@[simp] theorem allFaults_condition (keyword : String) (body : Option (List Lexeme)) :
    allFaults whole (Query.condition keyword body) = body.toList.flatMap (allFaults whole) := by
  cases body <;> simp [Query.condition, faults]

@[simp] theorem allFaults_label (projection : Projection) (position : Nat) :
    allFaults whole (projection.labelLexemes position) = [] := by
  rw [Projection.labelLexemes]
  split <;> simp [faults]

@[simp] theorem allFaults_name (database : Database) (handle : Alias) :
    allFaults whole (Source.nameLexemes database handle) = [] := by
  rw [Source.nameLexemes]
  split <;> simp [faults]

@[simp] theorem allFaults_everyColumn (aliases : List Alias) :
    allFaults whole (Query.everyColumn aliases) = [] := by
  simp [Query.everyColumn, List.flatMap_map, faults]

@[simp] theorem allFaults_pagination (database : Database) (fetchFirst offset : Option Nat)
    (ordered : Bool) :
    allFaults whole (Query.paginationLexemes database fetchFirst offset ordered) = [] := by
  rw [Query.paginationLexemes]
  split <;> simp [faults]

end Lexeme

/-! ## Faults of expressions and queries -/

/-- Why a source itself, apart from the query behind it, cannot be written. -/
def Source.refusal? (dialect : Dialect) (source : Source) : Option QueryError :=
  match source.relation with
  | .temporary =>
    if (dialect.temporaryName? source.alias.table.name).isNone then
      some (.unsupported dialect .temporaryTables)
    else none
  | .table | .derived _ | .common _ => none

/-- Why the lock of a query cannot be written. -/
def Query.refusal? (dialect : Dialect) (query : Query) : Option QueryError :=
  match query.lock with
  | some lock =>
    if (dialect.locks? query.isolation lock).isNone then
      some (.unsupported dialect (.keptLocks lock))
    else none
  | none => none

/-- The query behind a source that counts as part of a statement: `whole` with the common
tables, or else as far as it is written in place. -/
def Relation.body? (whole : Bool) : Relation → Option Query
  | .table | .temporary => none
  | .derived query => some query
  | .common query => if whole then some query else none

/-- The faults of an expression. -/
def Expr.faults (whole : Bool) (database : Database) (expr : Expr) : List QueryError :=
  Lexeme.allFaults whole (expr.lexemes database)

/-- The faults of a query. -/
def Query.faults (whole : Bool) (database : Database) (query : Query) : List QueryError :=
  Lexeme.allFaults whole (query.lexemes database)

section Walk

variable (whole : Bool) (database : Database)

theorem Expr.faults_eq_flatMap :
    Expr.faults whole database =
      fun expr => (expr.lexemes database).flatMap (Lexeme.faults whole) := by
  funext expr
  rw [faults, Lexeme.allFaults_eq]

theorem Expr.faults_list (exprs : List Expr) :
    (Expr.listLexemes database exprs).flatMap (Lexeme.allFaults whole) =
      exprs.flatMap (Expr.faults whole database) := by
  rw [Lexeme.allFaults_eq, flatMap_listLexemes, faults_eq_flatMap]

theorem Expr.faults_order (items : List (OrderItem Expr)) :
    (Expr.orderLexemes database items).flatMap (Lexeme.allFaults whole) =
      (items.map OrderItem.expr).flatMap (Expr.faults whole database) := by
  rw [Lexeme.allFaults_eq, flatMap_orderLexemes database Lexeme.faults_skipsGlue,
    faults_eq_flatMap]

/-- The faults of an expression are those of its parts and of the query within it, unless it
cannot be written itself. -/
theorem Expr.faults_eq (expr : Expr) :
    expr.faults whole database =
      match expr.refusal? database.dialect with
      | some error => [error]
      | none => (expr.parts database.dialect.windowClauses).flatMap (Expr.faults whole database) ++
          expr.query?.toList.flatMap (Query.faults whole database) := by
  have own : expr.leafLexeme?.toList.flatMap (Lexeme.faults whole) = [] := by
    cases expr with
    | argument _ => rfl
    | literal _ =>
        rw [leafLexeme?]
        split <;> rfl
    | column reference => cases reference <;> rfl
    | _ => rfl
  rw [faults, Lexeme.allFaults_eq, flatMap_lexemes database Lexeme.faults_skipsGlue, own,
    faults_eq_flatMap]
  rfl

/-- A fault of a source is its own, or one of the query behind it. -/
theorem Source.mem_faults_iff (source : Source) {error : QueryError} :
    error ∈ Lexeme.allFaults whole (source.lexemes database) ↔
      source.refusal? database.dialect = some error ∨
        ∃ nested, source.relation.body? whole = some nested ∧
          error ∈ nested.faults whole database := by
  cases source with
  | mk handle relation =>
      cases relation with
      | table | derived _ =>
          simp [lexemes, refusal?, Relation.body?, Lexeme.faults, Query.faults]
      | common _ =>
          cases whole <;> simp [lexemes, refusal?, Relation.body?, Lexeme.faults, Query.faults]
      | temporary =>
          simp only [lexemes, refusal?, Relation.body?]
          cases database.dialect.temporaryName? handle.table.name <;>
            simp [Lexeme.faults, eq_comm]

theorem Query.faults_joins (joins : List Join) :
    Lexeme.allFaults whole (Query.joinLexemes database joins) = joins.flatMap fun join =>
      Lexeme.allFaults whole (join.source.lexemes database) ++
        join.on.toList.flatMap (Expr.faults whole database) := by
  induction joins with
  | nil => rfl
  | cons join rest ih =>
      cases join with
      | mk kind source on =>
          cases on <;>
            simp [joinLexemes, Expr.optionLexemes, ih, Expr.faults, Lexeme.faults]

theorem Query.faults_projection (position : Nat) (projections : List Projection) :
    (Query.projectionLexemes database position projections).flatMap (Lexeme.allFaults whole) =
      projections.flatMap fun projection => projection.expr.faults whole database := by
  induction projections generalizing position with
  | nil => rfl
  | cons projection rest ih =>
      cases projection with
      | mk expr label => simp [projectionLexemes, ih, Expr.faults]

theorem Query.faults_operands (operands : List Operand) :
    Lexeme.allFaults whole (Query.operandLexemes database operands) =
      operands.flatMap fun operand => operand.query.faults whole database := by
  induction operands with
  | nil => rfl
  | cons operand rest ih =>
      cases operand with
      | mk operator query => simp [operandLexemes, ih, faults, Lexeme.faults]

theorem Query.faults_locking (query : Query) :
    Lexeme.allFaults whole (Query.lockingLexemes database query.isolation query.lock) =
      (query.refusal? database.dialect).toList := by
  rw [lockingLexemes.eq_def, refusal?]
  cases query.lock with
  | none => 
      cases query.isolation with
      | none => rfl
      | some level =>
          simp only
          cases database.dialect.isolation? level <;> rfl
  | some lock => 
      simp only
      cases database.dialect.locks? query.isolation lock <;> rfl

theorem Expr.faults_option (expr : Option Expr) :
    (Expr.optionLexemes database expr).toList.flatMap (Lexeme.allFaults whole) =
      expr.toList.flatMap (Expr.faults whole database) := by
  rw [Lexeme.allFaults_eq, flatMap_optionLexemes, faults_eq_flatMap]

/-- A fault of a query is one of its own, or of an expression, a source or an operand. -/
theorem Query.mem_faults_iff (query : Query) {error : QueryError} :
    error ∈ query.faults whole database ↔
      (∃ expr ∈ query.exprs, error ∈ expr.faults whole database) ∨
      (∃ source ∈ query.sources, source.refusal? database.dialect = some error ∨
        ∃ nested, source.relation.body? whole = some nested ∧
          error ∈ nested.faults whole database) ∨
      (∃ operand ∈ query.operands, error ∈ operand.query.faults whole database) ∨
      query.refusal? database.dialect = some error := by
  have locking := query.faults_locking whole database
  simp only [← Source.mem_faults_iff]
  cases query with
  | mk distinct projection source joins filter groupBy having operands orderBy fetchFirst
      offset isolation lock =>
      have selected : Lexeme.allFaults whole
          (if projection.isEmpty then
            Query.everyColumn (source.alias :: joins.map (·.source.alias))
          else Lexeme.separated (Query.projectionLexemes database 1 projection)) =
          projection.flatMap fun entry => entry.expr.faults whole database := by
        cases projection with
        | nil => exact Lexeme.allFaults_everyColumn _
        | cons first rest =>
            rw [← faults_projection whole database 1 (first :: rest),
              ← Lexeme.allFaults_separated]
            rfl
      simp only [faults, lexemes, Lexeme.allFaults_append, Lexeme.allFaults_cons, selected,
        locking, Lexeme.allFaults_condition, Lexeme.allFaults_clause,
        Lexeme.allFaults_pagination, Lexeme.faults, Expr.faults_option, Expr.faults_list,
        Expr.faults_order, faults_joins, faults_operands]
      simp only [exprs, sources, List.mem_append, List.mem_flatMap, List.mem_map,
        List.mem_filterMap, List.mem_cons, Option.mem_toList, List.not_mem_nil, false_or,
        or_false, exists_eq_or_imp]
      grind

end Walk

end SqlSelect
