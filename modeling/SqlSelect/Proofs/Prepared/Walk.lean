import SqlSelect.Proofs.Closure.Part

/-!
# Collecting from what is written

Whatever is collected symbol by symbol from a written expression comes from its parts, in
their order, from the query within it, and from the one symbol that an expression without
parts may be.  The symbols that only hold the parts together are passed over.
-/

namespace SqlSelect

namespace Lexeme

/-- A symbol that only holds together what is written. -/
def isGlue : Lexeme → Bool
  | .argument _ | .literal _ | .column _ | .query _ | .common _ _ | .fault _ => false
  | _ => true

/-- Collecting that passes over the symbols that hold the parts together. -/
def SkipsGlue {α : Type} (collect : Lexeme → List α) : Prop :=
  ∀ lexeme, lexeme.isGlue = true → collect lexeme = []

namespace SkipsGlue

variable {α : Type} {collect : Lexeme → List α} (skips : SkipsGlue collect)

include skips

theorem flatMap_cons {lexeme : Lexeme} (glue : lexeme.isGlue = true) (rest : List Lexeme) :
    (lexeme :: rest).flatMap collect = rest.flatMap collect := by
  rw [List.flatMap_cons, skips lexeme glue, List.nil_append]

theorem flatMap_singleton {lexeme : Lexeme} (glue : lexeme.isGlue = true) :
    [lexeme].flatMap collect = [] :=
  skips.flatMap_cons glue []

theorem flatMap_enclosed (body : List Lexeme) :
    (enclosed body).flatMap collect = body.flatMap collect := by
  rw [enclosed, List.cons_append, skips.flatMap_cons rfl, List.flatMap_append,
    skips.flatMap_singleton rfl, List.append_nil]

theorem flatMap_grouped (needed : Bool) (body : List Lexeme) :
    (grouped needed body).flatMap collect = body.flatMap collect := by
  cases needed with
  | false => rfl
  | true =>
      rw [grouped, if_pos rfl, List.cons_append, skips.flatMap_cons rfl, List.flatMap_append,
        skips.flatMap_singleton rfl, List.append_nil]

theorem flatMap_separated (items : List (List Lexeme)) :
    (separated items).flatMap collect = items.flatMap (List.flatMap collect) := by
  induction items with
  | nil => rfl
  | cons item rest ih =>
      cases rest with
      | nil => simp [separated]
      | cons second others =>
          rw [separated, List.flatMap_append, skips.flatMap_cons rfl, ih, ← List.flatMap_cons]
          exact List.cons_ne_nil second others

/-- A clause inside a window, left out where it is empty or the dialect has none. -/
theorem flatMap_windowClause {keyword : Lexeme} (glue : keyword.isGlue = true)
    {items : List (List Lexeme)} {empty : Bool} (silent : empty = true → items = [])
    (kept : Bool) :
    (if !empty && kept then keyword :: separated items else []).flatMap collect =
      if kept then items.flatMap (List.flatMap collect) else [] := by
  cases kept with
  | false => simp
  | true =>
      cases empty with
      | false => exact (skips.flatMap_cons glue _).trans (skips.flatMap_separated items)
      | true => rw [silent rfl]; rfl

end SkipsGlue

end Lexeme

namespace Expr

/-- Why an expression itself, apart from its parts, cannot be written. -/
def refusal? (dialect : Dialect) : Expr → Option QueryError
  | .column (.unresolved info _) => some (.unresolvedReference info [])
  | .window function _ _ order =>
    if function = .rowNumber ∧ dialect.rowNumberNeedsOrder = true ∧
        (!order.isEmpty && dialect.supportsWindowOrder) = false then
      some (.unsupported dialect .unorderedRowNumber)
    else none
  | _ => none

/-- The symbol that an expression without parts is. -/
def leafLexeme? : Expr → Option Lexeme
  | .argument value => some (.argument value)
  | .literal value => some (if value.hasLiteral then .literal value else .argument value)
  | .column (.resolved resolved) => some (.column resolved)
  | _ => none

variable {α : Type} {collect : Lexeme → List α} (database : Database)

theorem flatMap_listLexemes (exprs : List Expr) :
    (listLexemes database exprs).flatMap (List.flatMap collect) =
      exprs.flatMap fun expr => (expr.lexemes database).flatMap collect := by
  induction exprs with
  | nil => rfl
  | cons expr rest ih => rw [listLexemes, List.flatMap_cons, ih, List.flatMap_cons]

theorem flatMap_optionLexemes (expr : Option Expr) :
    (optionLexemes database expr).toList.flatMap (List.flatMap collect) =
      expr.toList.flatMap fun expr => (expr.lexemes database).flatMap collect := by
  cases expr <;> rfl

variable (skips : Lexeme.SkipsGlue collect)

include skips

theorem flatMap_orderLexemes (items : List (OrderItem Expr)) :
    (orderLexemes database items).flatMap (List.flatMap collect) =
      (items.map OrderItem.expr).flatMap fun expr => (expr.lexemes database).flatMap collect := by
  induction items with
  | nil => rfl
  | cons item rest ih =>
      cases item with
      | mk expr descending =>
          have direction :
              (if descending then [Lexeme.descending] else []).flatMap collect = [] := by
            cases descending with
            | false => rfl
            | true => exact skips.flatMap_singleton rfl
          rw [orderLexemes, List.flatMap_cons, ih, List.flatMap_append, direction,
            List.append_nil, List.map_cons, List.flatMap_cons]

theorem flatMap_branchLexemes (branches : List (Branch Expr)) :
    (branchLexemes database branches).flatMap collect =
      (branches.flatMap Branch.both).flatMap fun expr =>
        (expr.lexemes database).flatMap collect := by
  induction branches with
  | nil => rfl
  | cons branch rest ih =>
      cases branch with
      | mk condition result =>
          simp [branchLexemes, Branch.both, skips .when rfl, skips .thenResult rfl, ih]

/-- What is collected from an expression that can be written itself comes from the symbol it
is, from its parts, and from the query within it. -/
theorem flatMap_lexemes (expr : Expr) :
    (expr.lexemes database).flatMap collect =
      match expr.refusal? database.dialect with
      | some error => collect (.fault error)
      | none => expr.leafLexeme?.toList.flatMap collect ++
          ((expr.parts database.dialect.windowClauses).flatMap fun part =>
            (part.lexemes database).flatMap collect) ++
          expr.query?.toList.flatMap fun query => collect (.query (query.lexemes database)) := by
  cases expr with
  | argument _ | literal _ => simp [lexemes, refusal?, leafLexeme?, parts, query?]
  | column reference => cases reference <;> simp [lexemes, refusal?, leafLexeme?, parts, query?]
  | countAll =>
      simp [lexemes, refusal?, leafLexeme?, parts, query?, skips.flatMap_enclosed,
        skips (.function _) rfl, skips .star rfl]
  | binary operator left right =>
      rw [lexemes]
      split <;>
        simp [refusal?, leafLexeme?, parts, query?, placed, skips.flatMap_enclosed,
          skips.flatMap_grouped, skips .concat rfl, skips .comma rfl, skips (.operator _) rfl]
  | inList _ operand items =>
      simp [lexemes, refusal?, leafLexeme?, parts, query?, placed, skips.flatMap_enclosed,
        skips.flatMap_grouped, skips.flatMap_separated, flatMap_listLexemes, skips (.isIn _) rfl]
  | call _ distinct arguments =>
      cases distinct <;>
        simp [lexemes, refusal?, leafLexeme?, parts, query?, skips.flatMap_enclosed,
          skips.flatMap_separated, flatMap_listLexemes, skips (.function _) rfl,
          skips .distinct rfl]
  | window function arguments partition order =>
      have noPartition : partition.isEmpty = true → listLexemes database partition = [] := by
        intro empty
        rw [List.isEmpty_iff.mp empty, listLexemes]
      have noOrder : order.isEmpty = true → orderLexemes database order = [] := by
        intro empty
        rw [List.isEmpty_iff.mp empty, orderLexemes]
      have partitioned : Lexeme.isGlue .partitionBy = true := rfl
      have ordered (following : Bool) : Lexeme.isGlue (.orderBy following) = true := rfl
      simp only [lexemes, refusal?]
      split
      · rw [List.flatMap_singleton]
      · simp only [List.flatMap_append, List.flatMap_cons, skips (.function _) rfl,
          skips .over rfl, skips.flatMap_enclosed,
          skips.flatMap_windowClause partitioned noPartition,
          skips.flatMap_windowClause (ordered _) noOrder, skips.flatMap_separated,
          flatMap_listLexemes, flatMap_orderLexemes database skips, leafLexeme?, parts, query?,
          Dialect.windowClauses]
        by_cases partitions : database.dialect.supportsPartition = true <;>
          by_cases orders : database.dialect.supportsWindowOrder = true <;>
          simp [partitions, orders]
  | case branches otherwise =>
      cases otherwise <;>
        simp [lexemes, optionLexemes, refusal?, leafLexeme?, parts, query?,
          flatMap_branchLexemes database skips, skips .case rfl, skips .otherwise rfl,
          skips .endCase rfl]
  | not _ | negate _ | isNull _ _ | inQuery _ _ _ | «exists» _ _ | subquery _ | like _ _ _
  | between _ _ _ _ =>
      simp [lexemes, refusal?, leafLexeme?, parts, query?, placed, skips.flatMap_grouped,
        skips .not rfl, skips .minus rfl, skips (.isNull _) rfl, skips (.isIn _) rfl,
        skips (.exists _) rfl, skips (.like _) rfl, skips (.between _) rfl,
        skips (.operator _) rfl]
  | cast _ _ =>
      simp [lexemes, refusal?, leafLexeme?, parts, query?, skips.flatMap_enclosed,
        skips .cast rfl, skips (.asType _) rfl]

end Expr

end SqlSelect
